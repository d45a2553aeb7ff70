import Mathlib.Data.BitVec

/-! Instances by name for the sizes of the small types, so that a numeral of one of them is the same
term in every module. -/

namespace Desmume.Library

instance neZero_two : NeZero 2 := ⟨by decide⟩
instance neZero_three : NeZero 3 := ⟨by decide⟩
instance neZero_four : NeZero 4 := ⟨by decide⟩
instance neZero_five : NeZero 5 := ⟨by decide⟩
instance neZero_six : NeZero 6 := ⟨by decide⟩
instance neZero_eight : NeZero 8 := ⟨by decide⟩
instance neZero_ten : NeZero 10 := ⟨by decide⟩
instance neZero_fifteen : NeZero 15 := ⟨by decide⟩
instance neZero_sixteen : NeZero 16 := ⟨by decide⟩
instance neZero_seventeen : NeZero 17 := ⟨by decide⟩
instance neZero_thirtyTwo : NeZero 32 := ⟨by decide⟩

instance lawfulBEq_byte : LawfulBEq (BitVec 8) := inferInstance

end Desmume.Library
