import Mathlib.Data.Nat.Bitwise
import RadeonsiCompute.Device.Lookup

/-!
# The chips that are known

`AtiChipFamily` and the table of `ati_pciids_gen.def`, which
`getAtiChipFamily` and `getAtiChipFamilyString` go through from the first line
on. No device id is in the table twice, so the order of the lines says nothing.
-/

namespace RadeonsiCompute

open Lib

/-- A family of chips. `UNKNOWN` is zero as an `int`, and no other family is. -/
inductive AtiChipFamily
  | UNKNOWN | ARUBA | BARTS | BONAIRE | CAICOS | CAYMAN | CEDAR | CYPRESS | HAINAN | HAWAII
  | HEMLOCK | JUNIPER | KABINI | KAVERI | MACH32 | MACH64 | MULLINS | OLAND | PALM | PITCAIRN | R200
  | R300 | R350 | R360 | R420 | R423 | R430 | R480 | R481 | R520 | R580 | R600 | RADEON | RAGE128
  | RC410 | REDWOOD | RN50 | RS100 | RS200 | RS250 | RS300 | RS350 | RS400 | RS480 | RS482 | RS485
  | RS600 | RS690 | RS740 | RS780 | RS880 | RV100 | RV200 | RV250 | RV280 | RV350 | RV360 | RV370
  | RV380 | RV410 | RV515 | RV530 | RV560 | RV570 | RV610 | RV620 | RV630 | RV635 | RV670 | RV710
  | RV730 | RV740 | RV770 | RV790 | SUMO | SUMO2 | TAHITI | TURKS | VERDE
  deriving DecidableEq, Repr

/-- The lines `PCI_CHIP(family, sub, code)`, without the name of the model. -/
def pciChips : List (AtiChipFamily × UInt16) := [
  (.RV380, 0x3150), (.RV380, 0x3151), (.RV380, 0x3152), (.RV380, 0x3154), (.RV380, 0x3155),
  (.RV380, 0x3E50), (.RV380, 0x3E54), (.RS100, 0x4136), (.RS200, 0x4137), (.R300, 0x4144),
  (.R300, 0x4145), (.R300, 0x4146), (.R300, 0x4147), (.R350, 0x4148), (.R350, 0x4149),
  (.R350, 0x414A), (.R350, 0x414B), (.RV350, 0x4150), (.RV350, 0x4151), (.RV360, 0x4152),
  (.RV350, 0x4153), (.RV350, 0x4154), (.RV350, 0x4155), (.RV350, 0x4156), (.MACH32, 0x4158),
  (.RS250, 0x4237), (.R200, 0x4242), (.RS100, 0x4336), (.RS200, 0x4337), (.MACH64, 0x4354),
  (.MACH64, 0x4358), (.RS250, 0x4437), (.MACH64, 0x4554), (.MACH64, 0x4742), (.MACH64, 0x4744),
  (.MACH64, 0x4749), (.MACH64, 0x474C), (.MACH64, 0x474D), (.MACH64, 0x474E), (.MACH64, 0x474F),
  (.MACH64, 0x4750), (.MACH64, 0x4751), (.MACH64, 0x4752), (.MACH64, 0x4753), (.MACH64, 0x4754),
  (.MACH64, 0x4755), (.MACH64, 0x4756), (.MACH64, 0x4757), (.MACH64, 0x4758), (.MACH64, 0x4759),
  (.MACH64, 0x475A), (.RV250, 0x4966), (.RV250, 0x4967), (.R420, 0x4A48), (.R420, 0x4A49),
  (.R420, 0x4A4A), (.R420, 0x4A4B), (.R420, 0x4A4C), (.R420, 0x4A4D), (.R420, 0x4A4E),
  (.R420, 0x4A4F), (.R420, 0x4A50), (.R420, 0x4A54), (.R481, 0x4B48), (.R481, 0x4B49),
  (.R481, 0x4B4A), (.R481, 0x4B4B), (.R481, 0x4B4C), (.MACH64, 0x4C42), (.MACH64, 0x4C44),
  (.RAGE128, 0x4C45), (.RAGE128, 0x4C46), (.MACH64, 0x4C47), (.MACH64, 0x4C49), (.MACH64, 0x4C4D),
  (.MACH64, 0x4C4E), (.MACH64, 0x4C50), (.MACH64, 0x4C51), (.MACH64, 0x4C52), (.MACH64, 0x4C53),
  (.RADEON, 0x4C57), (.RADEON, 0x4C58), (.RADEON, 0x4C59), (.RADEON, 0x4C5A), (.RV250, 0x4C64),
  (.RV250, 0x4C66), (.RV250, 0x4C67), (.RV280, 0x4C6E), (.RAGE128, 0x4D46), (.RAGE128, 0x4D4C),
  (.R300, 0x4E44), (.R300, 0x4E45), (.R300, 0x4E46), (.R300, 0x4E47), (.R350, 0x4E48),
  (.R350, 0x4E49), (.R360, 0x4E4A), (.R350, 0x4E4B), (.RV350, 0x4E50), (.RV350, 0x4E51),
  (.RV350, 0x4E52), (.RV350, 0x4E53), (.RV350, 0x4E54), (.RV350, 0x4E56), (.RAGE128, 0x5041),
  (.RAGE128, 0x5042), (.RAGE128, 0x5043), (.RAGE128, 0x5044), (.RAGE128, 0x5045),
  (.RAGE128, 0x5046), (.RAGE128, 0x5047), (.RAGE128, 0x5048), (.RAGE128, 0x5049),
  (.RAGE128, 0x504A), (.RAGE128, 0x504B), (.RAGE128, 0x504C), (.RAGE128, 0x504D),
  (.RAGE128, 0x504E), (.RAGE128, 0x504F), (.RAGE128, 0x5050), (.RAGE128, 0x5051),
  (.RAGE128, 0x5052), (.RAGE128, 0x5053), (.RAGE128, 0x5054), (.RAGE128, 0x5055),
  (.RAGE128, 0x5056), (.RAGE128, 0x5057), (.RAGE128, 0x5058), (.RADEON, 0x5144), (.RADEON, 0x5145),
  (.RADEON, 0x5146), (.RADEON, 0x5147), (.R200, 0x5148), (.R200, 0x514C), (.R200, 0x514D),
  (.RV200, 0x5157), (.RV200, 0x5158), (.RV100, 0x5159), (.RV100, 0x515A), (.RN50, 0x515E),
  (.RAGE128, 0x5245), (.RAGE128, 0x5246), (.RAGE128, 0x5247), (.RAGE128, 0x524B),
  (.RAGE128, 0x524C), (.RAGE128, 0x5345), (.RAGE128, 0x5346), (.RAGE128, 0x5347),
  (.RAGE128, 0x5348), (.RAGE128, 0x534B), (.RAGE128, 0x534C), (.RAGE128, 0x534D),
  (.RAGE128, 0x534E), (.RAGE128, 0x5446), (.RAGE128, 0x544C), (.RAGE128, 0x5452),
  (.RAGE128, 0x5453), (.RAGE128, 0x5454), (.RAGE128, 0x5455), (.RV370, 0x5460), (.RV370, 0x5462),
  (.RV370, 0x5464), (.R423, 0x5548), (.R423, 0x5549), (.R423, 0x554A), (.R423, 0x554B),
  (.R430, 0x554C), (.R430, 0x554D), (.R430, 0x554E), (.R430, 0x554F), (.R423, 0x5550),
  (.R423, 0x5551), (.R423, 0x5552), (.R423, 0x5554), (.RV410, 0x564A), (.RV410, 0x564B),
  (.RV410, 0x564F), (.RV410, 0x5652), (.RV410, 0x5653), (.RV410, 0x5657), (.MACH64, 0x5654),
  (.MACH64, 0x5655), (.MACH64, 0x5656), (.RS300, 0x5834), (.RS300, 0x5835), (.RS480, 0x5954),
  (.RS480, 0x5955), (.RV280, 0x5960), (.RV280, 0x5961), (.RV280, 0x5962), (.RV280, 0x5964),
  (.RV280, 0x5965), (.RN50, 0x5969), (.RS482, 0x5974), (.RS485, 0x5975), (.RS400, 0x5A41),
  (.RS400, 0x5A42), (.RC410, 0x5A61), (.RC410, 0x5A62), (.RV370, 0x5B60), (.RV370, 0x5B62),
  (.RV370, 0x5B63), (.RV370, 0x5B64), (.RV370, 0x5B65), (.RV280, 0x5C61), (.RV280, 0x5C63),
  (.R430, 0x5D48), (.R430, 0x5D49), (.R430, 0x5D4A), (.R480, 0x5D4C), (.R480, 0x5D4D),
  (.R480, 0x5D4E), (.R480, 0x5D4F), (.R480, 0x5D50), (.R480, 0x5D52), (.R423, 0x5D57),
  (.RV410, 0x5E48), (.RV410, 0x5E4A), (.RV410, 0x5E4B), (.RV410, 0x5E4C), (.RV410, 0x5E4D),
  (.RV410, 0x5E4F), (.R520, 0x7100), (.R520, 0x7101), (.R520, 0x7102), (.R520, 0x7103),
  (.R520, 0x7104), (.R520, 0x7105), (.R520, 0x7106), (.R520, 0x7108), (.R520, 0x7109),
  (.R520, 0x710A), (.R520, 0x710B), (.R520, 0x710C), (.R520, 0x710E), (.R520, 0x710F),
  (.RV515, 0x7140), (.RV515, 0x7141), (.RV515, 0x7142), (.RV515, 0x7143), (.RV515, 0x7144),
  (.RV515, 0x7145), (.RV515, 0x7146), (.RV515, 0x7147), (.RV515, 0x7149), (.RV515, 0x714A),
  (.RV515, 0x714B), (.RV515, 0x714C), (.RV515, 0x714D), (.RV515, 0x714E), (.RV515, 0x714F),
  (.RV515, 0x7151), (.RV515, 0x7152), (.RV515, 0x7153), (.RV515, 0x715E), (.RV515, 0x715F),
  (.RV515, 0x7180), (.RV515, 0x7181), (.RV515, 0x7183), (.RV515, 0x7186), (.RV515, 0x7187),
  (.RV515, 0x7188), (.RV515, 0x718A), (.RV515, 0x718B), (.RV515, 0x718C), (.RV515, 0x718D),
  (.RV515, 0x718F), (.RV515, 0x7193), (.RV515, 0x7196), (.RV515, 0x719B), (.RV515, 0x719F),
  (.RV530, 0x71C0), (.RV530, 0x71C1), (.RV530, 0x71C2), (.RV530, 0x71C3), (.RV530, 0x71C4),
  (.RV530, 0x71C5), (.RV530, 0x71C6), (.RV530, 0x71C7), (.RV530, 0x71CD), (.RV530, 0x71CE),
  (.RV530, 0x71D2), (.RV530, 0x71D4), (.RV530, 0x71D5), (.RV530, 0x71D6), (.RV530, 0x71DA),
  (.RV530, 0x71DE), (.RV515, 0x7200), (.RV515, 0x7210), (.RV515, 0x7211), (.R580, 0x7240),
  (.R580, 0x7243), (.R580, 0x7244), (.R580, 0x7245), (.R580, 0x7246), (.R580, 0x7247),
  (.R580, 0x7248), (.R580, 0x7249), (.R580, 0x724A), (.R580, 0x724B), (.R580, 0x724C),
  (.R580, 0x724D), (.R580, 0x724E), (.R580, 0x724F), (.RV570, 0x7280), (.RV560, 0x7281),
  (.RV560, 0x7283), (.R580, 0x7284), (.RV560, 0x7287), (.RV570, 0x7288), (.RV570, 0x7289),
  (.RV570, 0x728B), (.RV570, 0x728C), (.RV560, 0x7290), (.RV560, 0x7291), (.RV560, 0x7293),
  (.RV560, 0x7297), (.RS350, 0x7834), (.RS350, 0x7835), (.RS690, 0x791E), (.RS690, 0x791F),
  (.RS600, 0x793F), (.RS600, 0x7941), (.RS600, 0x7942), (.RS740, 0x796C), (.RS740, 0x796D),
  (.RS740, 0x796E), (.RS740, 0x796F), (.R600, 0x9400), (.R600, 0x9401), (.R600, 0x9402),
  (.R600, 0x9403), (.R600, 0x9405), (.R600, 0x940A), (.R600, 0x940B), (.R600, 0x940F),
  (.RV770, 0x9440), (.RV770, 0x9441), (.RV770, 0x9442), (.RV770, 0x9443), (.RV770, 0x9444),
  (.RV770, 0x9446), (.RV770, 0x944A), (.RV770, 0x944B), (.RV770, 0x944C), (.RV770, 0x944E),
  (.RV770, 0x9450), (.RV770, 0x9452), (.RV770, 0x9456), (.RV770, 0x945A), (.RV770, 0x945B),
  (.RV770, 0x945E), (.RV790, 0x9460), (.RV790, 0x9462), (.RV770, 0x946A), (.RV770, 0x946B),
  (.RV770, 0x947A), (.RV770, 0x947B), (.RV730, 0x9480), (.RV730, 0x9487), (.RV730, 0x9488),
  (.RV730, 0x9489), (.RV730, 0x948A), (.RV730, 0x948F), (.RV730, 0x9490), (.RV730, 0x9491),
  (.RV730, 0x9495), (.RV730, 0x9498), (.RV730, 0x949C), (.RV730, 0x949E), (.RV730, 0x949F),
  (.RV740, 0x94A0), (.RV740, 0x94A1), (.RV740, 0x94A3), (.RV740, 0x94B1), (.RV740, 0x94B3),
  (.RV740, 0x94B4), (.RV740, 0x94B5), (.RV740, 0x94B9), (.RV610, 0x94C0), (.RV610, 0x94C1),
  (.RV610, 0x94C3), (.RV610, 0x94C4), (.RV610, 0x94C5), (.RV610, 0x94C6), (.RV610, 0x94C7),
  (.RV610, 0x94C8), (.RV610, 0x94C9), (.RV610, 0x94CB), (.RV610, 0x94CC), (.RV610, 0x94CD),
  (.RV670, 0x9500), (.RV670, 0x9501), (.RV670, 0x9504), (.RV670, 0x9505), (.RV670, 0x9506),
  (.RV670, 0x9507), (.RV670, 0x9508), (.RV670, 0x9509), (.RV670, 0x950F), (.RV670, 0x9511),
  (.RV670, 0x9515), (.RV670, 0x9517), (.RV670, 0x9519), (.RV710, 0x9540), (.RV710, 0x9541),
  (.RV710, 0x9542), (.RV710, 0x954E), (.RV710, 0x954F), (.RV710, 0x9552), (.RV710, 0x9553),
  (.RV710, 0x9555), (.RV710, 0x9557), (.RV710, 0x955F), (.RV630, 0x9580), (.RV630, 0x9581),
  (.RV630, 0x9583), (.RV630, 0x9586), (.RV630, 0x9587), (.RV630, 0x9588), (.RV630, 0x9589),
  (.RV630, 0x958A), (.RV630, 0x958B), (.RV630, 0x958C), (.RV630, 0x958D), (.RV630, 0x958E),
  (.RV630, 0x958F), (.RV620, 0x95C0), (.RV620, 0x95C2), (.RV620, 0x95C4), (.RV620, 0x95C5),
  (.RV620, 0x95C6), (.RV620, 0x95C7), (.RV620, 0x95C9), (.RV620, 0x95CC), (.RV620, 0x95CD),
  (.RV620, 0x95CE), (.RV620, 0x95CF), (.RV635, 0x9590), (.RV635, 0x9596), (.RV635, 0x9597),
  (.RV635, 0x9598), (.RV635, 0x9599), (.RV635, 0x9591), (.RV635, 0x9593), (.RV635, 0x9595),
  (.RV635, 0x959B), (.RS780, 0x9610), (.RS780, 0x9611), (.RS780, 0x9612), (.RS780, 0x9613),
  (.RS780, 0x9614), (.RS780, 0x9615), (.RS780, 0x9616), (.SUMO, 0x9640), (.SUMO, 0x9641),
  (.SUMO2, 0x9642), (.SUMO2, 0x9643), (.SUMO2, 0x9644), (.SUMO2, 0x9645), (.SUMO, 0x9647),
  (.SUMO, 0x9648), (.SUMO2, 0x9649), (.SUMO, 0x964A), (.SUMO, 0x964B), (.SUMO, 0x964C),
  (.SUMO, 0x964E), (.SUMO, 0x964F), (.RS880, 0x9710), (.RS880, 0x9711), (.RS880, 0x9712),
  (.RS880, 0x9713), (.RS880, 0x9714), (.RS880, 0x9715), (.PALM, 0x9802), (.PALM, 0x9803),
  (.PALM, 0x9804), (.PALM, 0x9805), (.PALM, 0x9806), (.PALM, 0x9807), (.PALM, 0x9808),
  (.PALM, 0x9809), (.PALM, 0x980A), (.CYPRESS, 0x6880), (.CYPRESS, 0x6888), (.CYPRESS, 0x6889),
  (.CYPRESS, 0x688A), (.CYPRESS, 0x688C), (.CYPRESS, 0x688D), (.CYPRESS, 0x6898),
  (.CYPRESS, 0x6899), (.CYPRESS, 0x689B), (.CYPRESS, 0x689E), (.HEMLOCK, 0x689C),
  (.HEMLOCK, 0x689D), (.JUNIPER, 0x68A0), (.JUNIPER, 0x68A1), (.JUNIPER, 0x68A8),
  (.JUNIPER, 0x68A9), (.JUNIPER, 0x68B0), (.JUNIPER, 0x68B8), (.JUNIPER, 0x68B9),
  (.JUNIPER, 0x68BA), (.JUNIPER, 0x68BE), (.JUNIPER, 0x68BF), (.REDWOOD, 0x68C0),
  (.REDWOOD, 0x68C1), (.REDWOOD, 0x68C7), (.REDWOOD, 0x68C8), (.REDWOOD, 0x68C9),
  (.REDWOOD, 0x68D8), (.REDWOOD, 0x68D9), (.REDWOOD, 0x68DA), (.REDWOOD, 0x68DE), (.CEDAR, 0x68E0),
  (.CEDAR, 0x68E1), (.CEDAR, 0x68E4), (.CEDAR, 0x68E5), (.CEDAR, 0x68E8), (.CEDAR, 0x68E9),
  (.CEDAR, 0x68F1), (.CEDAR, 0x68F2), (.CEDAR, 0x68F8), (.CEDAR, 0x68F9), (.CEDAR, 0x68FA),
  (.CEDAR, 0x68FE), (.CAYMAN, 0x6700), (.CAYMAN, 0x6701), (.CAYMAN, 0x6702), (.CAYMAN, 0x6703),
  (.CAYMAN, 0x6704), (.CAYMAN, 0x6705), (.CAYMAN, 0x6706), (.CAYMAN, 0x6707), (.CAYMAN, 0x6708),
  (.CAYMAN, 0x6709), (.CAYMAN, 0x6718), (.CAYMAN, 0x6719), (.CAYMAN, 0x671C), (.CAYMAN, 0x671D),
  (.CAYMAN, 0x671F), (.BARTS, 0x6720), (.BARTS, 0x6721), (.BARTS, 0x6722), (.BARTS, 0x6723),
  (.BARTS, 0x6724), (.BARTS, 0x6725), (.BARTS, 0x6726), (.BARTS, 0x6727), (.BARTS, 0x6728),
  (.BARTS, 0x6729), (.BARTS, 0x6738), (.BARTS, 0x6739), (.BARTS, 0x673E), (.TURKS, 0x6740),
  (.TURKS, 0x6741), (.TURKS, 0x6742), (.TURKS, 0x6743), (.TURKS, 0x6744), (.TURKS, 0x6745),
  (.TURKS, 0x6746), (.TURKS, 0x6747), (.TURKS, 0x6748), (.TURKS, 0x6749), (.TURKS, 0x674A),
  (.TURKS, 0x6750), (.TURKS, 0x6751), (.TURKS, 0x6758), (.TURKS, 0x6759), (.TURKS, 0x675B),
  (.TURKS, 0x675D), (.TURKS, 0x675F), (.TURKS, 0x6840), (.TURKS, 0x6841), (.TURKS, 0x6842),
  (.TURKS, 0x6843), (.TURKS, 0x6849), (.TURKS, 0x6850), (.TURKS, 0x6858), (.TURKS, 0x6859),
  (.CAICOS, 0x6760), (.CAICOS, 0x6761), (.CAICOS, 0x6762), (.CAICOS, 0x6763), (.CAICOS, 0x6764),
  (.CAICOS, 0x6765), (.CAICOS, 0x6766), (.CAICOS, 0x6767), (.CAICOS, 0x6768), (.CAICOS, 0x6770),
  (.CAICOS, 0x6771), (.CAICOS, 0x6772), (.CAICOS, 0x6778), (.CAICOS, 0x6779), (.CAICOS, 0x677B),
  (.ARUBA, 0x9900), (.ARUBA, 0x9901), (.ARUBA, 0x9903), (.ARUBA, 0x9904), (.ARUBA, 0x9905),
  (.ARUBA, 0x9906), (.ARUBA, 0x9907), (.ARUBA, 0x9908), (.ARUBA, 0x9909), (.ARUBA, 0x990A),
  (.ARUBA, 0x990B), (.ARUBA, 0x990C), (.ARUBA, 0x990D), (.ARUBA, 0x990E), (.ARUBA, 0x990F),
  (.ARUBA, 0x9910), (.ARUBA, 0x9913), (.ARUBA, 0x9917), (.ARUBA, 0x9918), (.ARUBA, 0x9919),
  (.ARUBA, 0x9990), (.ARUBA, 0x9991), (.ARUBA, 0x9992), (.ARUBA, 0x9993), (.ARUBA, 0x9994),
  (.ARUBA, 0x9995), (.ARUBA, 0x9996), (.ARUBA, 0x9997), (.ARUBA, 0x9998), (.ARUBA, 0x9999),
  (.ARUBA, 0x999A), (.ARUBA, 0x999B), (.ARUBA, 0x999C), (.ARUBA, 0x999D), (.ARUBA, 0x99A0),
  (.ARUBA, 0x99A2), (.ARUBA, 0x99A4), (.TAHITI, 0x6780), (.TAHITI, 0x6784), (.TAHITI, 0x6788),
  (.TAHITI, 0x678A), (.TAHITI, 0x6790), (.TAHITI, 0x6791), (.TAHITI, 0x6792), (.TAHITI, 0x6798),
  (.TAHITI, 0x6799), (.TAHITI, 0x679A), (.TAHITI, 0x679B), (.TAHITI, 0x679E), (.TAHITI, 0x679F),
  (.PITCAIRN, 0x6800), (.PITCAIRN, 0x6801), (.PITCAIRN, 0x6802), (.PITCAIRN, 0x6806),
  (.PITCAIRN, 0x6808), (.PITCAIRN, 0x6809), (.PITCAIRN, 0x6810), (.PITCAIRN, 0x6811),
  (.PITCAIRN, 0x6816), (.PITCAIRN, 0x6817), (.PITCAIRN, 0x6818), (.PITCAIRN, 0x6819),
  (.PITCAIRN, 0x684C), (.VERDE, 0x6820), (.VERDE, 0x6821), (.VERDE, 0x6822), (.VERDE, 0x6823),
  (.VERDE, 0x6824), (.VERDE, 0x6825), (.VERDE, 0x6826), (.VERDE, 0x6827), (.VERDE, 0x6828),
  (.VERDE, 0x6829), (.VERDE, 0x682A), (.VERDE, 0x682B), (.VERDE, 0x682D), (.VERDE, 0x682F),
  (.VERDE, 0x6830), (.VERDE, 0x6831), (.VERDE, 0x6835), (.VERDE, 0x6837), (.VERDE, 0x6838),
  (.VERDE, 0x6839), (.VERDE, 0x683B), (.VERDE, 0x683D), (.VERDE, 0x683F), (.OLAND, 0x6600),
  (.OLAND, 0x6601), (.OLAND, 0x6602), (.OLAND, 0x6603), (.OLAND, 0x6606), (.OLAND, 0x6607),
  (.OLAND, 0x6610), (.OLAND, 0x6611), (.OLAND, 0x6613), (.OLAND, 0x6620), (.OLAND, 0x6621),
  (.OLAND, 0x6623), (.OLAND, 0x6631), (.HAINAN, 0x6660), (.HAINAN, 0x6663), (.HAINAN, 0x6664),
  (.HAINAN, 0x6665), (.HAINAN, 0x6667), (.HAINAN, 0x666F), (.BONAIRE, 0x6640), (.BONAIRE, 0x6641),
  (.BONAIRE, 0x6649), (.BONAIRE, 0x6650), (.BONAIRE, 0x6651), (.BONAIRE, 0x6658),
  (.BONAIRE, 0x665C), (.BONAIRE, 0x665D), (.KABINI, 0x9830), (.KABINI, 0x9831), (.KABINI, 0x9832),
  (.KABINI, 0x9833), (.KABINI, 0x9834), (.KABINI, 0x9835), (.KABINI, 0x9836), (.KABINI, 0x9837),
  (.KABINI, 0x9838), (.KABINI, 0x9839), (.KABINI, 0x983A), (.KABINI, 0x983B), (.KABINI, 0x983C),
  (.KABINI, 0x983D), (.KABINI, 0x983E), (.KABINI, 0x983F), (.MULLINS, 0x9850), (.MULLINS, 0x9851),
  (.MULLINS, 0x9852), (.MULLINS, 0x9853), (.MULLINS, 0x9854), (.MULLINS, 0x9855),
  (.MULLINS, 0x9856), (.MULLINS, 0x9857), (.MULLINS, 0x9858), (.MULLINS, 0x9859),
  (.MULLINS, 0x985A), (.MULLINS, 0x985B), (.MULLINS, 0x985C), (.MULLINS, 0x985D),
  (.MULLINS, 0x985E), (.MULLINS, 0x985F), (.KAVERI, 0x1304), (.KAVERI, 0x1305), (.KAVERI, 0x1306),
  (.KAVERI, 0x1307), (.KAVERI, 0x1309), (.KAVERI, 0x130A), (.KAVERI, 0x130B), (.KAVERI, 0x130C),
  (.KAVERI, 0x130D), (.KAVERI, 0x130E), (.KAVERI, 0x130F), (.KAVERI, 0x1310), (.KAVERI, 0x1311),
  (.KAVERI, 0x1312), (.KAVERI, 0x1313), (.KAVERI, 0x1315), (.KAVERI, 0x1316), (.KAVERI, 0x1317),
  (.KAVERI, 0x131B), (.KAVERI, 0x131C), (.KAVERI, 0x131D), (.HAWAII, 0x67A0), (.HAWAII, 0x67A1),
  (.HAWAII, 0x67A2), (.HAWAII, 0x67A8), (.HAWAII, 0x67A9), (.HAWAII, 0x67AA), (.HAWAII, 0x67B0),
  (.HAWAII, 0x67B1), (.HAWAII, 0x67B8), (.HAWAII, 0x67B9), (.HAWAII, 0x67BA), (.HAWAII, 0x67BE)]

/-- A `struct pci_device`, with what the library knows of its names. -/
structure PciDevice where
  vendorId : UInt16
  deviceId : UInt16
  address : PciAddress
  vendorName : Option (List Byte)
  subdeviceName : Option (List Byte)
  deviceName : Option (List Byte)

def isAtiGPU (device : PciDevice) : Bool := device.vendorId == 0x1002

/-- The family in the first line with the device id. -/
def getAtiChipFamily (device : PciDevice) : Except Fault AtiChipFamily :=
  if isAtiGPU device then
    match pciChips.find? fun chip => chip.2 == device.deviceId with
    | some chip => .ok chip.1
    | none => .ok .UNKNOWN
  else .error (.assertion "isAtiGPU(device)")

/-! ## The table -/

/-- Whether no number of the list is among those seen or comes twice. The numbers
seen are the bits that are set. -/
def unseen : Nat → List Nat → Bool
  | _, [] => true
  | seen, n :: ns => !seen.testBit n && unseen (seen ||| 2 ^ n) ns

theorem nodup_of_unseen {seen : Nat} {ns : List Nat} (fresh : unseen seen ns = true) :
    ns.Nodup ∧ ∀ n ∈ ns, seen.testBit n = false := by
  induction ns generalizing seen with
  | nil => simp
  | cons n ns ih =>
      simp only [unseen, Bool.and_eq_true, Bool.not_eq_true'] at fresh
      obtain ⟨nodup, later⟩ := ih fresh.2
      have apart : ∀ k ∈ ns, k ≠ n ∧ seen.testBit k = false := by
        intro k member
        have clear := later k member
        rw [Nat.testBit_or, Bool.or_eq_false_iff] at clear
        refine ⟨?_, clear.1⟩
        rintro rfl
        simp at clear
      refine ⟨List.nodup_cons.mpr ⟨fun member => (apart n member).1 rfl, nodup⟩, ?_⟩
      simp only [List.forall_mem_cons]
      exact ⟨fresh.1, fun k member => (apart k member).2⟩

/-- No line repeats the device id of another. -/
theorem pciChips_nodup : (pciChips.map fun chip => chip.2.toNat).Nodup := by
  have fresh : unseen 0 (pciChips.map fun chip => chip.2.toNat) = true := by decide +kernel
  exact (nodup_of_unseen fresh).1

/-- No line is of the unknown family. -/
theorem pciChips_known : ∀ chip ∈ pciChips, chip.1 ≠ .UNKNOWN := by decide +kernel

/-- The family of a device of the vendor: the one it is listed with, or else unknown. -/
theorem getAtiChipFamily_iff {device : PciDevice} {family : AtiChipFamily}
    (ati : isAtiGPU device = true) : getAtiChipFamily device = .ok family ↔
      (family, device.deviceId) ∈ pciChips ∨
        family = .UNKNOWN ∧ ∀ chip ∈ pciChips, chip.2 ≠ device.deviceId := by
  rw [getAtiChipFamily, if_pos ati]
  cases found : pciChips.find? fun chip => chip.2 == device.deviceId with
  | none =>
      have absent : ∀ chip ∈ pciChips, chip.2 ≠ device.deviceId := by
        simpa using List.find?_eq_none.mp found
      show Except.ok _ = Except.ok _ ↔ _
      rw [Except.ok.injEq]
      constructor
      · intro same
        exact .inr ⟨same.symm, absent⟩
      · intro either
        cases either with
        | inl member => exact absurd rfl (absent _ member)
        | inr unknown => exact unknown.1.symm
  | some chip =>
      have member := List.mem_of_find?_eq_some found
      have code : chip.2 = device.deviceId := by simpa using List.find?_some found
      show Except.ok _ = Except.ok _ ↔ _
      rw [Except.ok.injEq]
      constructor
      · rintro rfl
        exact .inl (code ▸ member)
      · intro either
        cases either with
        | inl listed =>
            have same : chip = (family, device.deviceId) :=
              List.inj_on_of_nodup_map pciChips_nodup member listed (by rw [code])
            rw [same]
        | inr unknown => exact absurd code (unknown.2 chip member)

end RadeonsiCompute
