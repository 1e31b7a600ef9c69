import RadeonsiCompute.Lib.Word64
import RadeonsiCompute.Lib.Store
import RadeonsiCompute.Lib.LinkedList
import RadeonsiCompute.Memory
import RadeonsiCompute.Pool.Code
import RadeonsiCompute.Pool.Links
import RadeonsiCompute.Lib.Extents
import RadeonsiCompute.Lib.TSys
import RadeonsiCompute.Pool.Abstract
import RadeonsiCompute.Pool.Grow
import RadeonsiCompute.Pool.Shrink
import RadeonsiCompute.Buffer.Code
import RadeonsiCompute.Buffer.Fragments
import RadeonsiCompute.Buffer.Owned
import RadeonsiCompute.Buffer.Calls
import RadeonsiCompute.Buffer.Alloc
import RadeonsiCompute.Buffer.Runs
import RadeonsiCompute.Buffer.Flat
import RadeonsiCompute.Buffer.Kernel
import RadeonsiCompute.Lib.Moves
import RadeonsiCompute.Transfer.Code
import RadeonsiCompute.Transfer.Plan
import RadeonsiCompute.Transfer.Exact
import RadeonsiCompute.Transfer.Reject
import RadeonsiCompute.Cs.Packet
import RadeonsiCompute.Transfer.Held
import RadeonsiCompute.Cs.Submit
import RadeonsiCompute.Dma.Code
import RadeonsiCompute.Dma.Copy
import RadeonsiCompute.Dma.Decode
import RadeonsiCompute.Dma.Sync
import RadeonsiCompute.Dma.Async
import RadeonsiCompute.Dispatch.Code
import RadeonsiCompute.Lib.Writes
import RadeonsiCompute.Dispatch.Stream
import RadeonsiCompute.Dispatch.Program
import RadeonsiCompute.Dispatch.Recover
import RadeonsiCompute.Dispatch.Launch
import RadeonsiCompute.Pool.Inverse
import RadeonsiCompute.Buffer.Driver
import RadeonsiCompute.Pool.Groups
import RadeonsiCompute.Buffer.Legal
import RadeonsiCompute.Pool.FirstFit
import RadeonsiCompute.Buffer.Placement
import RadeonsiCompute.Buffer.AllOrNothing
import RadeonsiCompute.Buffer.Teardown
import RadeonsiCompute.Cs.Relocs
import RadeonsiCompute.Auth.Client
import RadeonsiCompute.Context.Create
import RadeonsiCompute.Context.Release
import RadeonsiCompute.Auth.Server
import RadeonsiCompute.Buffer.Frame
import RadeonsiCompute.Context.Process
import RadeonsiCompute.Context.Reserved
import RadeonsiCompute.Lib.Encoding
import RadeonsiCompute.Shader.Format
import RadeonsiCompute.Shader.Code
import RadeonsiCompute.Shader.Program
import RadeonsiCompute.Shader.Compare
import RadeonsiCompute.Shader.Branch
import RadeonsiCompute.Lib.Packed
import RadeonsiCompute.Shader.Resource
import RadeonsiCompute.Shader.Kernels
import RadeonsiCompute.Shader.Loops
import RadeonsiCompute.Lib.Scan
import RadeonsiCompute.Device.Lookup
import RadeonsiCompute.Device.Match
import RadeonsiCompute.Lib.Trace
import RadeonsiCompute.Power.Code
import RadeonsiCompute.Power.Course
import RadeonsiCompute.Power.Locks
import RadeonsiCompute.Lib.Supply
import RadeonsiCompute.Power.Voltage
import RadeonsiCompute.Power.Store
import RadeonsiCompute.Power.Runs
import RadeonsiCompute.Power.Restore
import RadeonsiCompute.Lib.Rings
import RadeonsiCompute.Buffer.Each
import RadeonsiCompute.Cs.Wait
import RadeonsiCompute.Ring.Driver
import RadeonsiCompute.Ring.Wait
import RadeonsiCompute.Ring.Copy
import RadeonsiCompute.Ring.Finished
import RadeonsiCompute.Ring.Launch
import RadeonsiCompute.Lib.Refinement
import RadeonsiCompute.Lib.Arrays
import RadeonsiCompute.Buffer.Mapped
import RadeonsiCompute.Bytes.Machine
import RadeonsiCompute.Bytes.Transfers
import RadeonsiCompute.Bytes.Refines
import RadeonsiCompute.Bytes.Runs
import RadeonsiCompute.Bytes.Compute
import RadeonsiCompute.Bytes.Animation
import RadeonsiCompute.Lib.Datagrams
import RadeonsiCompute.Device.Chips
import RadeonsiCompute.Device.Enumerate
import RadeonsiCompute.Auth.Master
import RadeonsiCompute.Auth.Exchange
import RadeonsiCompute.Shader.Listing
import RadeonsiCompute.Lib.Labels
import RadeonsiCompute.Shader.Wave
import RadeonsiCompute.Shader.Passes
import RadeonsiCompute.Shader.Iterations
import RadeonsiCompute.Shader.Operation
