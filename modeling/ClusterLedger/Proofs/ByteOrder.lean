import ClusterLedger.Name
import Mathlib.Tactic.SplitIfs
/- Names are ordered by code point. The bytes that they are written with in UTF-8 come in the same
   order, whatever lengths the characters have. -/
namespace ClusterLedger

section Bytes
variable {a b : Nat}

theorem byte_lt (left : a < 256) (right : b < 256) : UInt8.ofNat a < UInt8.ofNat b ↔ a < b := by
  rw [UInt8.lt_iff_toNat_lt, UInt8.toNat_ofNat_of_lt' left, UInt8.toNat_ofNat_of_lt' right]

theorem byte_eq (left : a < 256) (right : b < 256) : UInt8.ofNat a = UInt8.ofNat b ↔ a = b := by
  rw [← UInt8.toNat_inj, UInt8.toNat_ofNat_of_lt' left, UInt8.toNat_ofNat_of_lt' right]

/-- Two characters are told apart by their own bytes, so it does not matter what follows. -/
theorem encode_lt {c d : Char} (lt : c < d) (x y : List UInt8) :
    String.utf8EncodeChar c ++ x < String.utf8EncodeChar d ++ y := by
  have lt : c.val.toNat < d.val.toNat := UInt32.lt_iff_toNat_lt.mp lt
  have bound : d.val.toNat < 1114112 := by
    have := d.valid
    simp only [UInt32.isValidChar, Nat.isValidChar] at this
    omega
  rw [String.utf8EncodeChar, String.utf8EncodeChar]
  generalize c.val.toNat = m at *
  generalize d.val.toNat = n at *
  -- The bytes hold groups of six bits, so the larger shifts are made of smaller ones.
  have groups : ∀ v : Nat, v / 4096 = v / 64 / 64 ∧ v / 262144 = v / 64 / 64 / 64 := fun v => by
    omega
  split_ifs <;>
    simp (disch := omega) only [List.cons_append, List.nil_append, List.cons_lt_cons_iff, byte_lt,
      byte_eq, groups] <;>
    omega

theorem encode_flatMap_lt {x y : List Char} (lt : x < y) :
    x.flatMap String.utf8EncodeChar < y.flatMap String.utf8EncodeChar := by
  induction x generalizing y with
  | nil =>
    cases y with
    | nil => exact absurd lt (List.lt_irrefl _)
    | cons d y =>
      rw [List.flatMap_nil, List.flatMap_cons]
      obtain ⟨first, rest, bytes⟩ := List.exists_cons_of_ne_nil (String.utf8EncodeChar_ne_nil (c := d))
      rw [bytes]
      exact List.nil_lt_cons _ _
  | cons c x ih =>
    cases y with
    | nil => exact absurd lt (List.not_lt_nil _)
    | cons d y =>
      rw [List.flatMap_cons, List.flatMap_cons]
      rcases List.cons_lt_cons_iff.mp lt with apart | ⟨rfl, later⟩
      · exact encode_lt apart _ _
      · have after := ih later
        generalize String.utf8EncodeChar c = bytes
        induction bytes with
        | nil => exact after
        | cons byte bytes more => exact List.cons_lt_cons_iff.mpr (.inr ⟨rfl, more⟩)

end Bytes

namespace Name
variable {kind : NameKind}

def bytes (name : Name kind) : List UInt8 := name.text.toUTF8.data.toList

theorem bytes_eq (name : Name kind) :
    name.bytes = name.text.toList.flatMap String.utf8EncodeChar := by
  have written : name.text.toUTF8 = name.text.toList.utf8Encode := String.utf8Encode_toList.symm
  rw [bytes, written, List.utf8Encode, List.data_toByteArray]

theorem compare_lt_iff_bytes (a b : Name kind) : compare a b = .lt ↔ a.bytes < b.bytes := by
  have encoded : ∀ {a b : Name kind}, compare a b = .lt → a.bytes < b.bytes := fun {a b} less => by
    have texts : a.text < b.text := compareOfLessAndEq_eq_lt.mp less
    rw [bytes_eq, bytes_eq]
    exact encode_flatMap_lt texts
  refine ⟨encoded, fun less => ?_⟩
  cases order : compare a b with
  | lt => rfl
  | eq =>
    obtain rfl := Std.LawfulEqCmp.eq_of_compare order
    exact absurd less (List.lt_irrefl _)
  | gt => exact absurd (List.lt_trans less (encoded (Std.OrientedCmp.lt_of_gt order))) (List.lt_irrefl _)

end Name
end ClusterLedger
