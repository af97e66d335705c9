import Debitmetre.Wire.Url

/-!
# Percent-encodings

A query keeps its octets, except for a fixed set that is percent-encoded when a URL
is written.  Of the percent-encodings in a path those of unreserved characters can be
decoded without a change of what the path identifies: two paths are equivalent if
they are the same after that.
-/

namespace Wire

open Ascii

namespace Path

/-- No octet is written as nothing. -/
theorem length_le_encode (encodes : UInt8 → Bool) (text : Bytes) :
    text.length ≤ (encode encodes text).length := by
  induction text with
  | nil => exact Nat.le_refl 0
  | cons b text ih =>
      have own : 1 ≤ (if encodes b then percentEncode b else [b]).length := by
        split <;> exact Nat.le_add_left 1 _
      rw [encode, List.flatMap_cons, ← encode, List.length_append, List.length_cons, Nat.add_comm]
      exact Nat.add_le_add own ih

/-- A text is written as it is if and only if it has no octet that is encoded. -/
theorem encode_eq_self_iff (encodes : UInt8 → Bool) (text : Bytes) :
    encode encodes text = text ↔ ∀ b ∈ text, encodes b = false := by
  constructor
  · intro same
    induction text with
    | nil =>
        intro b member
        cases member
    | cons b text ih =>
        rw [encode, List.flatMap_cons, ← encode] at same
        by_cases encoded : encodes b = true
        · -- What is encoded becomes longer, and no other octet makes up for it.
          have longer := length_le_encode encodes text
          have lengths := congrArg List.length same
          rw [if_pos encoded, List.length_append, List.length_cons, percentEncode, List.length_cons,
            List.length_map] at lengths
          simp only [List.length_cons, List.length_nil] at lengths
          omega
        · rw [if_neg encoded, List.singleton_append, List.cons_inj_right] at same
          exact List.forall_mem_cons.mpr ⟨Bool.of_not_eq_true encoded, ih same⟩
  · intro plain
    rw [encode]
    conv => rhs; rw [← List.flatMap_singleton' text]
    apply List.flatMap_congr
    intro b member
    rw [plain b member]
    rfl

end Path

namespace Query

/-- The octets that are percent-encoded in the query of a URL of a special scheme. -/
def isEncoded (b : UInt8) : Bool :=
  b ≤ space || b == quote || b == hash || b == 0x27 || b == 0x3C || b == 0x3E || 0x7F ≤ b

/-- How a query is written. -/
def serialize (query : Bytes) : Bytes := Path.encode isEncoded query

end Query

namespace Percent

/-- Letters, digits and a few marks. -/
def isUnreserved (b : UInt8) : Bool :=
  isDigit b || (0x41 ≤ b && b ≤ 0x5A) || (0x61 ≤ b && b ≤ 0x7A) || (utf8 "-._~").contains b

/-- The octet that two hexadecimal digits stand for. -/
def octet (first second : UInt8) : UInt8 := (hexValue first * 16 + hexValue second).toUInt8

/-- Decode the percent-encodings of unreserved characters. -/
def normalize : Bytes → Bytes
  | percent :: first :: second :: rest =>
      if isHex first && isHex second && isUnreserved (octet first second) then
        octet first second :: normalize rest
      else percent :: normalize (first :: second :: rest)
  | b :: rest => b :: normalize rest
  | [] => []

theorem normalize_percent (first second : UInt8) (rest : Bytes) :
    normalize (percent :: first :: second :: rest) =
      if isHex first && isHex second && isUnreserved (octet first second) then
        octet first second :: normalize rest
      else percent :: normalize (first :: second :: rest) := rfl

/-- A text without percent-encodings is normal. -/
theorem normalize_of_notMem {text : Bytes} (plain : percent ∉ text) : normalize text = text := by
  induction text with
  | nil => rfl
  | cons b text ih =>
      rw [List.mem_cons, not_or] at plain
      rw [normalize, ih plain.2]
      intro first second rest same
      exact absurd same.symm plain.1

/-- What follows a slash is normalized on its own. -/
theorem normalize_append_slash (first second : Bytes) :
    normalize (first ++ slash :: second) = normalize first ++ slash :: normalize second := by
  -- A slash is no digit, so what a text ends in before it is not completed by it.
  have slash_notHex : isHex slash = false := rfl
  fun_induction normalize first with
  | case1 a b rest decoded ih =>
      rw [List.cons_append, List.cons_append, List.cons_append, normalize, if_pos decoded, ih,
        List.cons_append]
  | case2 a b rest kept ih =>
      rw [List.cons_append, List.cons_append, List.cons_append, normalize, if_neg kept,
        ← List.cons_append, ← List.cons_append, ih, List.cons_append]
  | case3 a rest incomplete ih =>
      rw [List.cons_append, List.cons_append]
      by_cases escape : a = percent
      · subst escape
        match rest with
        | [] =>
            cases second with
            | nil => rfl
            | cons b second => exact congrArg (percent :: ·) ih
        | [b] =>
            have kept : ¬ (isHex b && isHex slash && isUnreserved (octet b slash)) = true := by
              rw [slash_notHex, Bool.and_false, Bool.false_and]
              exact Bool.false_ne_true
            rw [List.cons_append, List.nil_append, normalize_percent, if_neg kept]
            exact congrArg (percent :: ·) ih
        | b :: c :: rest => exact absurd rfl (incomplete b c rest rfl)
      · rw [normalize, ih]
        intro first second' rest' same
        exact absurd same escape
  | case4 =>
      rw [List.nil_append, normalize]
      · rfl
      · intro first second' rest' same
        cases same

end Percent

end Wire
