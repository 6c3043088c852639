import Mathlib.Logic.Function.Defs
import Remodel.Codec.Hex

/-!
# Reading hexadecimal text undoes writing it

The two digits of a byte stand for its two halves, so that different byte strings have different
texts (`encode_injective`).
-/

namespace Remodel.Codec.Hex

theorem value?_digit : ∀ n < 16, value? (digit n) = some n := by decide

theorem decodeChars?_encode (bytes : Bytes) :
    decodeChars? (bytes.flatMap fun b => [digit (b.toNat / 16), digit (b.toNat % 16)]) =
      some bytes := by
  induction bytes with
  | nil => rfl
  | cons b rest ih =>
      have hb := b.toNat_lt
      have hhigh : value? (digit (b.toNat / 16)) = some (b.toNat / 16) :=
        value?_digit _ (by omega)
      have hlow : value? (digit (b.toNat % 16)) = some (b.toNat % 16) := value?_digit _ (by omega)
      have hbyte : UInt8.ofNat (16 * (b.toNat / 16) + b.toNat % 16) = b := by
        rw [Nat.div_add_mod, UInt8.ofNat_toNat]
      rw [List.flatMap_cons, List.cons_append, List.cons_append, List.nil_append, decodeChars?,
        hhigh, hlow, ih]
      simp only [Option.bind_eq_bind, Option.bind_some, Option.pure_def, hbyte]

/-- Reading the text of a byte string gives the byte string. -/
theorem decode?_encode (bytes : Bytes) : decode? (encode bytes) = some bytes := by
  rw [decode?, encode, String.toList_ofList, decodeChars?_encode]

theorem encode_injective : Function.Injective encode := by
  intro a b h
  have hdecode := congrArg decode? h
  rw [decode?_encode, decode?_encode] at hdecode
  exact Option.some.inj hdecode

end Remodel.Codec.Hex
