import Desmume.Arm.CpuDefs
import Mathlib.Data.List.FinRange

/-! The system control coprocessor: its registers, and the masks that it computes from the
protection registers for the check of an access. -/

namespace Desmume.Cp15

open Desmume.Arm

/-- `CP15_ACCESS_WRITEUSR` to `CP15_ACCESS_EXECSYS`. -/
inductive Access where
  | WRITEUSR
  | WRITESYS
  | READUSR
  | READSYS
  | EXECUSR
  | EXECSYS
deriving DecidableEq, Repr

/-- What an access is compared with: it is let through when `address & mask == set`. -/
structure MaskSet where
  mask : Word
  set : Word
deriving DecidableEq, Repr

/-- The fields of `armcp15_t` that `moveARM2CP` writes. The twelve arrays
`regionWriteMask_USR` to `regionExecuteSet_SYS` are `region`, by the kind of access. -/
structure Armcp15 where
  ctrl : Word
  DCConfig : Word
  ICConfig : Word
  writeBuffCtrl : Word
  DaccessPerm : Word
  IaccessPerm : Word
  protectBaseSize : Fin 8 → Word
  DcacheLock : Word
  IcacheLock : Word
  ITCMRegion : Word
  DTCMRegion : Word
  region : Access → Fin 8 → MaskSet

/-- The constructor. -/
def init : Armcp15 where
  ctrl := 0x00012078
  DCConfig := 0
  ICConfig := 0
  writeBuffCtrl := 0
  DaccessPerm := 0x22222222
  IaccessPerm := 0x22222222
  protectBaseSize := fun _ => 0
  DcacheLock := 0
  IcacheLock := 0
  ITCMRegion := 0x0C
  DTCMRegion := 0x0080000A
  region := fun _ _ => ⟨0, 0⟩

/-- `CP15_ACCESSTYPE`. -/
def accessType (val : Word) (n : Fin 8) : ℕ := ((val >>> (4 * n.val)) &&& 0xF).toNat

/-- `CP15_SIZEIDENTIFIER`. -/
def sizeIdentifier (val : Word) : ℕ := ((val >>> 1) &&& 0x1F).toNat

/-- `CP15_SIZEBINARY`. -/
def sizeBinary (val : Word) : Word := 1 <<< (sizeIdentifier val + 1)

/-- `CP15_MASKFROMREG`. -/
def maskFromReg (val : Word) : Word := ~~~((sizeBinary val - 1) ||| 0x3F)

/-- `CP15_SETFROMREG`. -/
def setFromReg (val : Word) : Word := val &&& maskFromReg val

/-- `(x & 0) == 0xFFFFFFFF` holds of no address. -/
def MaskSet.deny : MaskSet := ⟨0, 0xFFFFFFFF⟩

/-- The mask and the set that `precalc` hands on for a region register. -/
def precalc (val : Word) : MaskSet :=
  if val.getLsbD 0 then
    if sizeIdentifier val = 0x1F then ⟨0, 0⟩ else ⟨maskFromReg val, setFromReg val⟩
  else .deny

namespace Armcp15

def setRegion (cp : Armcp15) (a : Access) (num : Fin 8) (m : MaskSet) : Armcp15 :=
  { cp with region := Function.update cp.region a (Function.update (cp.region a) num m) }

/-- The arrays of one case of the `switch` on `DaccessPerm`. -/
def setData (cp : Armcp15) (num : Fin 8) (writeUSR readUSR writeSYS readSYS : MaskSet) : Armcp15 :=
  (((cp.setRegion .WRITEUSR num writeUSR).setRegion .READUSR num readUSR).setRegion .WRITESYS num
    writeSYS).setRegion .READSYS num readSYS

/-- The arrays of one case of the `switch` on `IaccessPerm`. -/
def setExecute (cp : Armcp15) (num : Fin 8) (USR SYS : MaskSet) : Armcp15 :=
  (cp.setRegion .EXECUSR num USR).setRegion .EXECSYS num SYS

/-- The `switch` on `DaccessPerm`. -/
def setDataAccess (cp : Armcp15) (num : Fin 8) (m : MaskSet) : Armcp15 :=
  match accessType cp.DaccessPerm num with
  | 1 => cp.setData num .deny .deny m m
  | 2 => cp.setData num .deny m m m
  | 3 => cp.setData num m m m m
  | 5 => cp.setData num .deny .deny .deny m
  | 6 => cp.setData num .deny m .deny m
  | _ => cp.setData num .deny .deny .deny .deny

/-- The `switch` on `IaccessPerm`, which has no case 5. -/
def setExecuteAccess (cp : Armcp15) (num : Fin 8) (m : MaskSet) : Armcp15 :=
  match accessType cp.IaccessPerm num with
  | 1 => cp.setExecute num .deny m
  | 2 | 3 | 6 => cp.setExecute num m m
  | 5 => cp
  | _ => cp.setExecute num .deny .deny

/-- `setSingleRegionAccess`. -/
def setSingleRegionAccess (cp : Armcp15) (num : Fin 8) (m : MaskSet) : Armcp15 :=
  (cp.setDataAccess num m).setExecuteAccess num m

/-- `maskPrecalc`. -/
def maskPrecalc (cp : Armcp15) : Armcp15 :=
  (List.finRange 8).foldl
    (fun cp num => cp.setSingleRegionAccess num (precalc (cp.protectBaseSize num))) cp

/-- `isAccessAllowed`. -/
def isAccessAllowed (cp : Armcp15) (address : Word) (access : Access) : Bool :=
  if !cp.ctrl.getLsbD 0 then true
  else (List.finRange 8).any fun i =>
    address &&& (cp.region access i).mask == (cp.region access i).set

end Armcp15

/-- An `MCR` to this coprocessor, in the mode the processor is in. -/
structure Mcr where
  mode : BitVec 5
  val : Word
  CRn : ℕ
  CRm : ℕ
  opcode1 : ℕ
  opcode2 : ℕ
deriving DecidableEq, Repr

/-- `moveARM2CP`, as far as it writes the coprocessor. -/
def moveARM2CP (cp : Armcp15) (m : Mcr) : Armcp15 :=
  if m.mode = Mode.usr.code then cp
  else
    match m.CRn with
    | 1 =>
      if m.opcode1 = 0 ∧ m.opcode2 = 0 ∧ m.CRm = 0 then
        { cp with ctrl := (m.val &&& 0x000FF085) ||| 0x00000078 }
      else cp
    | 2 =>
      if m.opcode1 = 0 ∧ m.CRm = 0 then
        match m.opcode2 with
        | 0 => { cp with DCConfig := m.val }
        | 1 => { cp with ICConfig := m.val }
        | _ => cp
      else cp
    | 3 =>
      if m.opcode1 = 0 ∧ m.opcode2 = 0 ∧ m.CRm = 0 then { cp with writeBuffCtrl := m.val } else cp
    | 5 =>
      if m.opcode1 = 0 ∧ m.CRm = 0 then
        match m.opcode2 with
        | 2 => { cp with DaccessPerm := m.val }.maskPrecalc
        | 3 => { cp with IaccessPerm := m.val }.maskPrecalc
        | _ => cp
      else cp
    | 6 =>
      if m.opcode1 = 0 ∧ m.opcode2 = 0 then
        if h : m.CRm < 8 then
          { cp with
            protectBaseSize := Function.update cp.protectBaseSize ⟨m.CRm, h⟩ m.val }.maskPrecalc
        else cp
      else cp
    | 9 =>
      if m.opcode1 = 0 then
        match m.CRm, m.opcode2 with
        | 0, 0 => { cp with DcacheLock := m.val }
        | 0, 1 => { cp with IcacheLock := m.val }
        | 1, 0 => { cp with DTCMRegion := m.val &&& 0x0FFFF000 }
        | 1, 1 => { cp with ITCMRegion := m.val }
        | _, _ => cp
      else cp
    | _ => cp

end Desmume.Cp15
