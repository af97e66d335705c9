import Debitmetre.Wire.Json.Syntax

/-!
# What literals denote

A string literal denotes the string its escapes spell, if they spell Unicode
scalar values and its octets are UTF-8.  The escapes written for a string are
the ones JSON requires: the quote, the backslash and the control characters, the
common ones by their short names (`Wire.Json.StrLit.ofString`).
-/

namespace Wire.Json

open Ascii

/-- A lower-case hexadecimal digit. -/
def hexDigit (n : UInt8) : UInt8 := if n < 10 then 0x30 + n else 0x57 + n

/-- An octet of a string as it is written between quotes. -/
def escapeByte (b : UInt8) : Bytes :=
  if b = quote then [backslash, quote]
  else if b = backslash then [backslash, backslash]
  else if b = 0x08 then [backslash, 0x62]
  else if b = tab then [backslash, 0x74]
  else if b = lf then [backslash, 0x6E]
  else if b = 0x0C then [backslash, 0x66]
  else if b = cr then [backslash, 0x72]
  else if b < 0x20 then [backslash, 0x75, 0x30, 0x30, hexDigit (b / 16), hexDigit (b % 16)]
  else [b]

/-- The octets between the quotes of a string. -/
def escape (octets : Bytes) : Bytes := octets.flatMap escapeByte

/-- The character a one-letter escape stands for. -/
def shortEscape (b : UInt8) : Option UInt8 :=
  if b = quote ∨ b = backslash ∨ b = slash then some b
  else if b = 0x62 then some 0x08
  else if b = 0x66 then some 0x0C
  else if b = 0x6E then some lf
  else if b = 0x72 then some cr
  else if b = 0x74 then some tab
  else none

/-- The UTF-16 code unit four hexadecimal digits stand for. -/
def codeUnit (h₁ h₂ h₃ h₄ : UInt8) : Nat :=
  ((hexValue h₁ * 16 + hexValue h₂) * 16 + hexValue h₃) * 16 + hexValue h₄

/-- The first half of a surrogate pair. -/
def isLeading (unit : Nat) : Bool := 0xD800 ≤ unit && unit < 0xDC00

/-- The second half of a surrogate pair. -/
def isTrailing (unit : Nat) : Bool := 0xDC00 ≤ unit && unit < 0xE000

/-- The octets a string literal spells.  A surrogate that is not half of a pair
spells nothing. -/
def unescape : Bytes → Option Bytes
  | [] => some []
  | [b] => if b = backslash then none else some [b]
  | b :: escaped :: rest =>
      if b ≠ backslash then (unescape (escaped :: rest)).map (b :: ·)
      else if escaped ≠ 0x75 then
        (shortEscape escaped).bind fun c => (unescape rest).map (c :: ·)
      else match rest with
        | h₁ :: h₂ :: h₃ :: h₄ :: rest =>
            let unit := codeUnit h₁ h₂ h₃ h₄
            if isTrailing unit then none
            else if isLeading unit then
              match rest with
              | s :: u :: t₁ :: t₂ :: t₃ :: t₄ :: rest =>
                  let trailing := codeUnit t₁ t₂ t₃ t₄
                  if s = backslash ∧ u = 0x75 ∧ isTrailing trailing then
                    (unescape rest).map (String.utf8EncodeChar (Char.ofNat
                      (0x10000 + (unit - 0xD800) * 0x400 + (trailing - 0xDC00))) ++ ·)
                  else none
              | _ => none
            else (unescape rest).map (String.utf8EncodeChar (Char.ofNat unit) ++ ·)
        | _ => none

/-- The string a literal denotes. -/
def StrLit.string? (literal : StrLit) : Option String :=
  (unescape literal.text).bind utf8?

/-- An octet that is no backslash stands for itself. -/
theorem unescape_plain {b : UInt8} (plain : b ≠ backslash) (rest : Bytes) :
    unescape (b :: rest) = (unescape rest).map (b :: ·) := by
  rw [unescape.eq_def]
  cases rest with
  | nil => simp only [plain, ↓reduceIte, unescape, Option.map_some]
  | cons next rest => simp only [ne_eq, plain, not_false_eq_true, ↓reduceIte]

/-- A backslash and a letter. -/
theorem unescape_short {escaped c : UInt8} (named : shortEscape escaped = some c) (rest : Bytes) :
    unescape (backslash :: escaped :: rest) = (unescape rest).map (c :: ·) := by
  have notUnicode : escaped ≠ 0x75 := by
    rintro rfl
    cases named
  rw [unescape.eq_def]
  simp only [ne_eq, not_true_eq_false, ↓reduceIte, notUnicode, not_false_eq_true, named,
    Option.bind_some]

/-- A backslash and four hexadecimal digits. -/
theorem unescape_control {b : UInt8} (control : b < 0x20) (rest : Bytes) :
    unescape (backslash :: 0x75 :: 0x30 :: 0x30 :: hexDigit (b / 16) :: hexDigit (b % 16) :: rest) =
      (unescape rest).map (b :: ·) := by
  have table : ∀ n : Fin 32,
      isTrailing
          (codeUnit 0x30 0x30 (hexDigit (.ofNat n / 16)) (hexDigit (.ofNat n % 16))) = false ∧
      isLeading (codeUnit 0x30 0x30 (hexDigit (.ofNat n / 16)) (hexDigit (.ofNat n % 16))) = false ∧
      String.utf8EncodeChar (Char.ofNat
        (codeUnit 0x30 0x30 (hexDigit (.ofNat n / 16)) (hexDigit (.ofNat n % 16)))) =
          [UInt8.ofNat n] := by decide
  have entry := table ⟨b.toNat, by simpa [UInt8.lt_iff_toNat_lt] using control⟩
  simp only [UInt8.ofNat_toNat] at entry
  obtain ⟨notTrailing, notLeading, encoded⟩ := entry
  simp only [unescape, ne_eq, not_true_eq_false, ↓reduceIte, notTrailing, notLeading, encoded,
    Bool.false_eq_true, List.singleton_append]

/-- Reading back what is written for one octet. -/
theorem unescape_escapeByte (b : UInt8) (rest : Bytes) :
    unescape (escapeByte b ++ rest) = (unescape rest).map (b :: ·) := by
  unfold escapeByte
  split_ifs with h₁ h₂ h₃ h₄ h₅ h₆ h₇ h₈
  · subst h₁; exact unescape_short rfl rest
  · subst h₂; exact unescape_short rfl rest
  · subst h₃; exact unescape_short rfl rest
  · subst h₄; exact unescape_short rfl rest
  · subst h₅; exact unescape_short rfl rest
  · subst h₆; exact unescape_short rfl rest
  · subst h₇; exact unescape_short rfl rest
  · exact unescape_control h₈ rest
  · exact unescape_plain h₂ rest

/-- **What is escaped is read back.** -/
@[simp] theorem unescape_escape (octets : Bytes) : unescape (escape octets) = some octets := by
  induction octets with
  | nil => rfl
  | cons b octets ih =>
      rw [escape, List.flatMap_cons, unescape_escapeByte, ← escape, ih, Option.map_some]

/-- What is written for an octet is part of a string. -/
theorem runFrom_escapeByte (b : UInt8) :
    strings.runFrom .plain (escapeByte b) = some .plain := by
  unfold escapeByte
  split_ifs with h₁ h₂ h₃ h₄ h₅ h₆ h₇ h₈
  · rfl
  · rfl
  · rfl
  · rfl
  · rfl
  · rfl
  · rfl
  · have table : ∀ n : Fin 32, strings.runFrom .plain [backslash, 0x75, 0x30, 0x30,
        hexDigit (.ofNat n / 16), hexDigit (.ofNat n % 16)] = some .plain := by decide
    have entry := table ⟨b.toNat, by simpa [UInt8.lt_iff_toNat_lt] using h₈⟩
    simpa only [UInt8.ofNat_toNat] using entry
  · have stepped : strStep .plain b = some .plain := by
      simp only [strStep, h₁, h₂, h₈, or_self, ↓reduceIte]
    rw [Automaton.runFrom_cons]
    exact Option.bind_eq_some_iff.mpr ⟨.plain, stepped, rfl⟩

/-- What is escaped is a string without an open escape. -/
theorem runFrom_escape (octets : Bytes) : strings.runFrom .plain (escape octets) = some .plain := by
  induction octets with
  | nil => rfl
  | cons b octets ih =>
      rw [escape, List.flatMap_cons, strings.runFrom_append_of_eq (runFrom_escapeByte b)]
      exact ih

/-- The literal written for a string. -/
def StrLit.ofString (s : String) : StrLit where
  text := escape (utf8 s)
  accepted := strings.accepts_iff.mpr ⟨.plain, runFrom_escape (utf8 s), rfl⟩

/-- **A text is read back** from its literal. -/
@[simp] theorem StrLit.string?_ofString (s : String) : (StrLit.ofString s).string? = some s := by
  rw [StrLit.string?, StrLit.ofString, unescape_escape, Option.bind_some, utf8?_utf8]

/-- The number a literal without sign, fraction and exponent denotes. -/
def NumLit.natural? (literal : NumLit) : Option Nat :=
  if literal.text.all isDigit then
    some (literal.text.foldl (fun n b => 10 * n + (b.toNat - 0x30)) 0)
  else none

/-- The decimal notation of a number. -/
def decimal (n : Nat) : Bytes := (Nat.toDigits 10 n).map fun c => c.toNat.toUInt8

theorem toNat_digit {c : Char} (digit : c.isDigit = true) :
    isDigit c.toNat.toUInt8 = true ∧ c.toNat.toUInt8.toNat = c.toNat := by
  have bounds : 48 ≤ c.toNat ∧ c.toNat ≤ 57 := by
    simp only [Char.isDigit, Bool.and_eq_true, decide_eq_true_eq] at digit
    exact digit
  have value : c.toNat.toUInt8.toNat = c.toNat := by
    rw [Nat.toUInt8, UInt8.toNat_ofNat']
    omega
  refine ⟨?_, value⟩
  simp only [isDigit, Bool.and_eq_true, decide_eq_true_eq, UInt8.le_iff_toNat_le, value]
  exact bounds

/-- A number is written with digits. -/
theorem decimal_all_isDigit (n : Nat) : (decimal n).all isDigit = true := by
  simp only [decimal, List.all_map, List.all_eq_true, Function.comp_apply]
  exact fun c member =>
    (toNat_digit (Nat.isDigit_of_mem_toDigits (by decide) (by decide) member)).1

/-- Its digits give the number. -/
theorem foldl_decimal (n : Nat) :
    (decimal n).foldl (fun n b => 10 * n + (b.toNat - 0x30)) 0 = n := by
  rw [decimal, List.foldl_map]
  calc (Nat.toDigits 10 n).foldl (fun n c => 10 * n + (c.toNat.toUInt8.toNat - 0x30)) 0
      = Nat.ofDigitChars 10 (Nat.toDigits 10 n) 0 := by
        rw [Nat.ofDigitChars_eq_foldl]
        apply List.foldl_ext
        intro acc c member
        rw [(toNat_digit (Nat.isDigit_of_mem_toDigits (by decide) (by decide) member)).2]
        rfl
    _ = n := Nat.ofDigitChars_ten_toDigits

theorem decimal_of_lt {n : Nat} (small : n < 10) : decimal n = [0x30 + n.toUInt8] := by
  have table : ∀ n : Fin 10, decimal n = [0x30 + (n : Nat).toUInt8] := by decide
  exact table ⟨n, small⟩

/-- The last digit of a number and the ones before it. -/
theorem decimal_of_le {n : Nat} (large : 10 ≤ n) :
    decimal n = decimal (n / 10) ++ [0x30 + (n % 10).toUInt8] := by
  have last := decimal_of_lt (Nat.mod_lt n (by decide : 0 < 10))
  rw [decimal, Nat.toDigits_of_lt_base (Nat.mod_lt n (by decide))] at last
  rw [decimal, Nat.toDigits_of_base_le (by decide) large, List.map_append, last, ← decimal]

/-- The decimal notation has no leading zero: it is read as a number literal. -/
theorem runFrom_decimal (n : Nat) :
    numbers.runFrom .start (decimal n) = some (if n = 0 then .zero else .whole) := by
  induction n using Nat.strongRecOn with
  | ind n ih =>
      by_cases small : n < 10
      · have table : ∀ n : Fin 10, numbers.runFrom .start (decimal n) =
            some (if (n : Nat) = 0 then .zero else .whole) := by decide
        exact table ⟨n, small⟩
      · have large : 10 ≤ n := by omega
        have before := ih (n / 10) (by omega)
        rw [if_neg (by omega)] at before
        have table : ∀ d : Fin 10, numbers.runFrom .whole [0x30 + (d : Nat).toUInt8] =
            some .whole := by decide
        rw [decimal_of_le large, numbers.runFrom_append_of_eq before, if_neg (by omega)]
        exact table ⟨n % 10, Nat.mod_lt n (by decide)⟩

/-- The literal written for a natural number. -/
def NumLit.ofNat (n : Nat) : NumLit where
  text := decimal n
  accepted := numbers.accepts_iff.mpr ⟨_, runFrom_decimal n, by split <;> rfl⟩

/-- **A number is read back** from its literal. -/
@[simp] theorem NumLit.natural?_ofNat (n : Nat) : (NumLit.ofNat n).natural? = some n := by
  rw [NumLit.natural?, NumLit.ofNat, decimal_all_isDigit, if_pos rfl, foldl_decimal]

end Wire.Json
