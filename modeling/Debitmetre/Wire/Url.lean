import Debitmetre.Wire.Ascii
import Mathlib.Data.List.DropRight
import Mathlib.Data.List.TakeWhile

/-!
# URLs

The URLs of the `http` and `https` schemes and how the URL Standard reads them,
from a text without tabs and newlines.  A backslash in a path is a slash, a
segment of dots is resolved, also if its dots are percent-encoded, a fixed set of
octets is percent-encoded and all other octets are kept.  How hosts are read and
which octets are encoded is left to a library.
-/

namespace Wire

open Ascii

namespace Ascii

@[match_pattern] abbrev hash : UInt8 := 0x23
@[match_pattern] abbrev percent : UInt8 := 0x25
@[match_pattern] abbrev question : UInt8 := 0x3F

end Ascii

/-- Octets that are all of a kind. -/
theorem forall_of_all {kind : UInt8 → Bool} {text : Bytes} (all : text.all kind = true) :
    ∀ b ∈ text, kind b = true :=
  List.all_eq_true.mp all

/-- Octets none of which is of a kind. -/
theorem forall_of_not_any {kind : UInt8 → Bool} {text : Bytes} (none : text.any kind = false) :
    ∀ b ∈ text, kind b = false := fun b member =>
  Bool.of_not_eq_true (List.any_eq_false.mp none b member)

namespace Path

/-- The spellings of a dot. -/
def dots : List Bytes := [utf8 ".", utf8 "%2e", utf8 "%2E"]

def isSingleDot (segment : Bytes) : Bool := dots.contains segment

def isDoubleDot (segment : Bytes) : Bool :=
  (dots.flatMap fun first => dots.map (first ++ ·)).contains segment

/-- A segment that is resolved and not kept. -/
def isDot (segment : Bytes) : Bool := isSingleDot segment || isDoubleDot segment

/-- The upper case hexadecimal digits. -/
def hexDigits : Bytes := utf8 "0123456789ABCDEF"

/-- The percent-encoding of an octet. -/
def percentEncode (b : UInt8) : Bytes :=
  percent :: [b.toNat / 16, b.toNat % 16].map fun n => hexDigits.getD n zero

/-- A slash, or what is read as one. -/
def isSlash (b : UInt8) : Bool := b == slash || b == backslash

variable (encodes : UInt8 → Bool)

/-- Percent-encode the octets of a set. -/
def encode (segment : Bytes) : Bytes :=
  segment.flatMap fun b => if encodes b then percentEncode b else [b]

/-- Resolve the segments of dots after those of a path. -/
def resolve (path : List Bytes) : List Bytes → List Bytes
  | [] => path
  | [last] =>
      if isDoubleDot last then path.dropLast ++ [[]]
      else if isSingleDot last then path ++ [[]]
      else path ++ [last]
  | segment :: rest =>
      if isDoubleDot segment then resolve path.dropLast rest
      else if isSingleDot segment then resolve path rest
      else resolve (path ++ [segment]) rest

/-- A path without its first slash. -/
def unrooted : Bytes → Bytes
  | [] => []
  | b :: rest => if isSlash b then rest else b :: rest

/-- Read a path. -/
def parse (path : Bytes) : Bytes :=
  slash :: [slash].intercalate
    (resolve [] (((unrooted path).splitOnP isSlash).map (encode encodes)))

/-- Other segments are kept as they are. -/
theorem resolve_of_notDot (path segments : List Bytes)
    (kept : ∀ segment ∈ segments, isDot segment = false) :
    resolve path segments = path ++ segments := by
  fun_induction resolve path segments with
  | case1 path => exact (List.append_nil path).symm
  | case2 path last double | case3 path last notDouble single =>
      have plain := kept last (List.mem_singleton_self last)
      simp_all only [isDot, Bool.or_eq_false_iff, Bool.true_eq_false, and_false, false_and]
  | case4 => rfl
  | case5 path segment rest more double | case6 path segment rest more notDouble single =>
      have plain := kept segment List.mem_cons_self
      simp_all only [isDot, Bool.or_eq_false_iff, Bool.true_eq_false, and_false, false_and]
  | case7 path segment rest more notDouble notSingle ih =>
      rw [ih fun other member => kept other (List.mem_cons_of_mem _ member), List.append_assoc,
        List.singleton_append]

/-- What is read leaves a last segment. -/
theorem resolve_ne_nil (path : List Bytes) {segments : List Bytes} (read : segments ≠ []) :
    resolve path segments ≠ [] := by
  fun_induction resolve path segments with
  | case1 => exact absurd rfl read
  | case2 | case3 | case4 => exact List.append_ne_nil_of_right_ne_nil _ (List.cons_ne_nil _ _)
  | case5 path segment rest more double ih => exact ih more
  | case6 path segment rest more notDouble single ih => exact ih more
  | case7 path segment rest more notDouble notSingle ih => exact ih more

/-- A path has at most as many segments as were read. -/
theorem length_resolve_le (path segments : List Bytes) :
    (resolve path segments).length ≤ path.length + segments.length := by
  fun_induction resolve path segments <;>
    simp_all only [List.length_append, List.length_dropLast, List.length_cons, List.length_nil] <;>
    omega

/-- A path of as many segments as were read has lost none, except that the last
one may have been a dot. -/
theorem notDot_of_length (path segments : List Bytes)
    (full : path.length + segments.length ≤ (resolve path segments).length) :
    (∀ segment ∈ segments.dropLast, isDot segment = false) ∧
      ∀ last ∈ segments.getLast?, isDot last = true →
        (resolve path segments).getLast? = some [] := by
  fun_induction resolve path segments with
  | case1 path => exact ⟨nofun, nofun⟩
  | case2 | case3 => exact ⟨nofun, fun _ _ _ => List.getLast?_concat⟩
  | case4 path last notDouble notSingle =>
      refine ⟨nofun, fun other same dotted => ?_⟩
      cases same
      rw [isDot, Bool.or_eq_true] at dotted
      exact (dotted.elim notSingle notDouble).elim
  | case5 path segment rest more double =>
      have shorter := length_resolve_le path.dropLast rest
      rw [List.length_dropLast] at shorter
      rw [List.length_cons] at full
      omega
  | case6 path segment rest more notDouble single =>
      have shorter := length_resolve_le path rest
      rw [List.length_cons] at full
      omega
  | case7 path segment rest more notDouble notSingle ih =>
      rw [List.length_cons] at full
      obtain ⟨kept, ending⟩ := ih (by rw [List.length_append, List.length_singleton]; omega)
      have plain : isDot segment = false := by
        rw [isDot, Bool.of_not_eq_true notSingle, Bool.of_not_eq_true notDouble]
        rfl
      obtain ⟨next, rest, rfl⟩ := List.exists_cons_of_ne_nil more
      rw [List.dropLast_cons_cons, List.getLast?_cons_cons]
      exact ⟨List.forall_mem_cons.mpr ⟨plain, kept⟩, ending⟩

/-- **A path keeps its segments if and only if each of them is written as it is
read and none is a dot.** -/
theorem resolve_encode_eq_iff (encodes : UInt8 → Bool) {segments : List Bytes}
    (nonempty : segments ≠ []) :
    resolve [] (segments.map (encode encodes)) = segments ↔
      ∀ segment ∈ segments, encode encodes segment = segment ∧ isDot segment = false := by
  constructor
  · intro same
    have full : ([] : List Bytes).length + (segments.map (encode encodes)).length ≤
        (resolve [] (segments.map (encode encodes))).length := by
      rw [same, List.length_map, List.length_nil, Nat.zero_add]
    obtain ⟨kept, ending⟩ := notDot_of_length [] _ full
    have notDot : ∀ segment ∈ segments.map (encode encodes), isDot segment = false := by
      obtain ⟨first, last, rfl⟩ := (List.eq_nil_or_concat segments).resolve_left nonempty
      rw [List.concat_eq_append] at same kept ending ⊢
      rw [List.map_append, List.map_singleton, List.dropLast_concat] at kept
      rw [List.map_append, List.map_singleton, List.forall_mem_append]
      refine ⟨kept, fun other member => ?_⟩
      rw [List.mem_singleton.mp member]
      rw [List.map_append, List.map_singleton] at ending same
      by_contra dotted
      have empty := ending _ List.getLast?_concat (Bool.of_not_eq_false dotted)
      rw [same, List.getLast?_concat, Option.some.injEq] at empty
      rw [empty] at dotted
      exact dotted rfl
    have written := same.symm.trans (resolve_of_notDot [] _ notDot)
    rw [List.nil_append] at written
    intro segment member
    have fixed : encode encodes segment = segment := by
      have pointwise := List.map_inj_left.mp (written.symm.trans (List.map_id segments).symm)
      exact pointwise segment member
    exact ⟨fixed, fixed ▸ notDot _ (List.mem_map_of_mem member)⟩
  · intro kept
    have written : segments.map (encode encodes) = segments := by
      conv => rhs; rw [← List.map_id segments]
      exact List.map_congr_left fun segment member => (kept segment member).1
    rw [written, resolve_of_notDot [] segments fun segment member => (kept segment member).2,
      List.nil_append]

/-- What a percent-encoding is written with. -/
theorem mem_percentEncode {b c : UInt8} (member : c ∈ percentEncode b) :
    c ∈ percent :: hexDigits := by
  have digit (n : Nat) : hexDigits.getD n zero ∈ hexDigits := by
    rw [List.getD_eq_getElem?_getD]
    cases found : hexDigits[n]? with
    | none => exact List.mem_of_elem_eq_true rfl
    | some value => exact List.mem_of_getElem? found
  simp only [percentEncode, List.map_cons, List.map_nil, List.mem_cons, List.not_mem_nil,
    or_false] at member
  rcases member with rfl | rfl | rfl
  · exact List.mem_cons_self
  · exact List.mem_cons_of_mem _ (digit _)
  · exact List.mem_cons_of_mem _ (digit _)

/-- What a segment is read as is made of its octets and percent-encodings. -/
theorem mem_encode {segment : Bytes} {c : UInt8} (member : c ∈ encode encodes segment) :
    c ∈ segment ∨ c ∈ percent :: hexDigits := by
  obtain ⟨b, read, written⟩ := List.mem_flatMap.mp member
  split at written
  · exact .inr (mem_percentEncode written)
  · exact .inl (List.mem_singleton.mp written ▸ read)

/-- Segments are pieces between slashes. -/
theorem mem_splitOnP {α : Type} {separates : α → Bool} {text piece : List α} {a : α}
    (split : piece ∈ text.splitOnP separates) (member : a ∈ piece) :
    a ∈ text ∧ separates a = false := by
  induction text generalizing piece with
  | nil =>
      rw [List.splitOnP_nil, List.mem_singleton] at split
      rw [split] at member
      cases member
  | cons b text ih =>
      rw [List.splitOnP_cons_eq_if_modifyHead] at split
      obtain ⟨head, pieces, shape⟩ := List.exists_cons_of_ne_nil
        (List.splitOnP_ne_nil separates text)
      rw [shape] at split ih
      split at split
      · rcases List.mem_cons.mp split with rfl | later
        · cases member
        · exact (ih later member).imp_left (List.mem_cons_of_mem b)
      · rename_i inside
        rw [List.modifyHead_cons] at split
        rcases List.mem_cons.mp split with rfl | later
        · rcases List.mem_cons.mp member with rfl | member
          · exact ⟨List.mem_cons_self, Bool.of_not_eq_true inside⟩
          · exact (ih List.mem_cons_self member).imp_left (List.mem_cons_of_mem b)
        · exact (ih (List.mem_cons_of_mem _ later) member).imp_left (List.mem_cons_of_mem b)

/-- Without backslashes, only slashes separate. -/
theorem splitOnP_isSlash {path : Bytes} (plain : backslash ∉ path) :
    path.splitOnP isSlash = path.splitOn slash := by
  induction path with
  | nil => rfl
  | cons b path ih =>
      rw [List.mem_cons, not_or] at plain
      rw [List.splitOnP_cons_eq_if_modifyHead, List.splitOn_cons_eq_if_modifyHead, ih plain.2,
        isSlash, beq_eq_false_iff_ne.mpr (Ne.symm plain.1), Bool.or_false]

/-- Nothing is resolved to a segment that was not there, except an empty one. -/
theorem mem_resolve {path segments : List Bytes} {segment : Bytes}
    (member : segment ∈ resolve path segments) :
    segment = [] ∨ segment ∈ path ∨ segment ∈ segments := by
  fun_induction resolve path segments with
  | case1 path => exact .inr (.inl member)
  | case2 path last double =>
      rcases List.mem_append.mp member with kept | ending
      · exact .inr (.inl (List.dropLast_subset path kept))
      · exact .inl (List.mem_singleton.mp ending)
  | case3 path last notDouble single =>
      rcases List.mem_append.mp member with kept | ending
      · exact .inr (.inl kept)
      · exact .inl (List.mem_singleton.mp ending)
  | case4 path last notDouble notSingle => exact .inr (List.mem_append.mp member)
  | case5 path segment' rest more double ih =>
      exact (ih member).imp_right fun found =>
        found.imp (fun kept => List.dropLast_subset path kept) (List.mem_cons_of_mem _)
  | case6 path segment' rest more notDouble single ih =>
      exact (ih member).imp_right fun found => found.imp_right (List.mem_cons_of_mem _)
  | case7 path segment' rest more notDouble notSingle ih =>
      rcases ih member with empty | kept | later
      · exact .inl empty
      · rcases List.mem_append.mp kept with kept | here
        · exact .inr (.inl kept)
        · exact .inr (.inr (List.mem_singleton.mp here ▸ List.mem_cons_self))
      · exact .inr (.inr (List.mem_cons_of_mem _ later))

theorem mem_intercalate {α : Type} {separator a : α} {pieces : List (List α)}
    (member : a ∈ [separator].intercalate pieces) :
    a = separator ∨ ∃ piece ∈ pieces, a ∈ piece := by
  induction pieces with
  | nil => cases member
  | cons piece pieces ih =>
      cases pieces with
      | nil =>
          rw [List.intercalate_singleton] at member
          exact .inr ⟨piece, List.mem_cons_self, member⟩
      | cons next pieces =>
          rw [List.intercalate_cons_cons, List.append_assoc, List.mem_append,
            List.singleton_append, List.mem_cons] at member
          rcases member with here | same | later
          · exact .inr ⟨piece, List.mem_cons_self, here⟩
          · exact .inl same
          · refine (ih later).imp_right fun ⟨other, found, inside⟩ => ?_
            exact ⟨other, List.mem_cons_of_mem _ found, inside⟩

/-- A parsed segment has no separator, and its octets were there or are those of
percent-encodings. -/
theorem mem_resolved {path segment : Bytes}
    (member : segment ∈ resolve [] ((path.splitOnP isSlash).map (encode encodes))) {c : UInt8}
    (inside : c ∈ segment) :
    isSlash c = false ∧ (c ∈ path ∨ c ∈ percent :: hexDigits) := by
  rcases mem_resolve member with rfl | none | read
  · cases inside
  · cases none
  · obtain ⟨piece, split, rfl⟩ := List.mem_map.mp read
    rcases mem_encode encodes inside with kept | written
    · obtain ⟨found, plain⟩ := mem_splitOnP split kept
      exact ⟨plain, .inl found⟩
    · have plain : ∀ c ∈ percent :: hexDigits, isSlash c = false := forall_of_not_any rfl
      exact ⟨plain c written, .inr written⟩

theorem mem_of_mem_unrooted {path : Bytes} {b : UInt8} (member : b ∈ unrooted path) :
    b ∈ path := by
  cases path with
  | nil => cases member
  | cons first rest =>
      rw [unrooted] at member
      split at member
      · exact List.mem_cons_of_mem _ member
      · exact member

/-- **A path is parsed to itself if and only if it has no backslash, no octet that
is to be encoded and no segment of dots.** -/
theorem parse_eq_iff (path : Bytes) :
    parse encodes (slash :: path) = slash :: path ↔
      backslash ∉ path ∧ ∀ segment ∈ path.splitOn slash,
        encode encodes segment = segment ∧ isDot segment = false := by
  have unfolded : parse encodes (slash :: path) = slash :: [slash].intercalate
      (resolve [] ((path.splitOnP isSlash).map (encode encodes))) := rfl
  rw [unfolded, List.cons_inj_right]
  constructor
  · intro same
    have plain : backslash ∉ path := by
      intro member
      rw [← same] at member
      rcases mem_intercalate member with slashed | ⟨segment, resolved, inside⟩
      · cases slashed
      · exact nomatch (mem_resolved encodes resolved inside).1
    refine ⟨plain, ?_⟩
    rw [splitOnP_isSlash plain] at same
    have nonempty : resolve [] ((path.splitOn slash).map (encode encodes)) ≠ [] :=
      resolve_ne_nil [] fun none => List.splitOn_ne_nil slash path (List.map_eq_nil_iff.mp none)
    have kept : resolve [] ((path.splitOn slash).map (encode encodes)) = path.splitOn slash := by
      conv => rhs; rw [← same]
      refine (List.splitOn_intercalate slash (fun segment member found => ?_) nonempty).symm
      rw [← splitOnP_isSlash plain] at member
      exact nomatch (mem_resolved encodes member found).1
    exact (resolve_encode_eq_iff encodes (List.splitOn_ne_nil slash path)).mp kept
  · rintro ⟨plain, kept⟩
    rw [splitOnP_isSlash plain, (resolve_encode_eq_iff encodes
      (List.splitOn_ne_nil slash path)).mpr kept, List.intercalate_splitOn]

/-- The segments before a slash are segments of the whole. -/
theorem mem_splitOn_append {first rest segment : Bytes}
    (ending : ∀ b ∈ rest, b = slash) (member : segment ∈ first.splitOn slash) :
    segment ∈ (first ++ rest).splitOn slash := by
  cases rest with
  | nil => rwa [List.append_nil]
  | cons b rest =>
      rw [ending b List.mem_cons_self, List.splitOn_append_cons_self]
      exact List.mem_append_left _ member

/-- Below a base that is parsed to itself, a path is parsed to itself if and only
if that holds of what is added. -/
theorem parse_below_iff {base : Bytes} (normalized : parse encodes base = base) (path : Bytes) :
    parse encodes (base.rdropWhile (· == slash) ++ slash :: path) =
        base.rdropWhile (· == slash) ++ slash :: path ↔
      parse encodes (slash :: path) = slash :: path := by
  have joined : base.rdropWhile (· == slash) ++ base.rtakeWhile (· == slash) = base :=
    List.rdropWhile_append_rtakeWhile
  have slashes : ∀ b ∈ base.rtakeWhile (· == slash), b = slash := by
    intro b member
    have same : (b == slash) = true := List.mem_rtakeWhile_imp (p := (· == slash)) member
    exact eq_of_beq same
  cases trimmed : base.rdropWhile (· == slash) with
  | nil => rfl
  | cons first rest =>
      rw [trimmed, List.cons_append] at joined
      have rooted : first = slash := by
        rw [← joined, parse] at normalized
        exact (List.cons.inj normalized).1.symm
      subst rooted
      rw [← joined, parse_eq_iff] at normalized
      obtain ⟨plain, kept⟩ := normalized
      have plain_rest : backslash ∉ rest := fun member => plain (List.mem_append_left _ member)
      have kept_rest : ∀ segment ∈ rest.splitOn slash,
          encode encodes segment = segment ∧ isDot segment = false := fun segment member =>
        kept segment (mem_splitOn_append slashes member)
      rw [List.cons_append, parse_eq_iff, parse_eq_iff, List.splitOn_append_cons_self,
        List.forall_mem_append, List.mem_append, List.mem_cons, not_or, not_or]
      exact ⟨fun both => ⟨both.1.2.2, both.2.2⟩,
        fun both => ⟨⟨plain_rest, nofun, both.1⟩, kept_rest, both.2⟩⟩

/-- A character of a path segment, other than a percent-encoding. -/
def isPchar (b : UInt8) : Bool :=
  isDigit b || (0x41 ≤ b && b ≤ 0x5A) || (0x61 ≤ b && b ≤ 0x7A) ||
    (utf8 "-._~!$&\x27()*+,;=:@").contains b

/-- The text of a path is made of path characters, percent-encodings and slashes. -/
def isText : Bytes → Bool
  | [] => true
  | percent :: first :: second :: rest => isHex first && isHex second && isText rest
  | b :: rest => (isPchar b || b == slash) && isText rest

theorem isPchar_of_isHex {b : UInt8} (hex : isHex b = true) : isPchar b = true := by
  simp only [isHex, isPchar, Bool.or_eq_true, Bool.and_eq_true, decide_eq_true_eq] at hex ⊢
  rcases hex with (digit | upper) | lower
  · exact .inl (.inl (.inl digit))
  · exact .inl (.inl (.inr ⟨upper.1, UInt8.le_trans upper.2 (by decide)⟩))
  · exact .inl (.inr ⟨lower.1, UInt8.le_trans lower.2 (by decide)⟩)

/-- The octets of the text of a path. -/
theorem mem_of_isText {path : Bytes} (text : isText path = true) {b : UInt8} (member : b ∈ path) :
    b = slash ∨ b = percent ∨ isPchar b = true := by
  fun_induction isText path with
  | case1 => cases member
  | case2 first second rest ih =>
      rw [Bool.and_eq_true, Bool.and_eq_true] at text
      rcases List.mem_cons.mp member with rfl | member
      · exact .inr (.inl rfl)
      rcases List.mem_cons.mp member with rfl | member
      · exact .inr (.inr (isPchar_of_isHex text.1.1))
      rcases List.mem_cons.mp member with rfl | member
      · exact .inr (.inr (isPchar_of_isHex text.1.2))
      · exact ih text.2 member
  | case3 first rest notEncoding ih =>
      rw [Bool.and_eq_true, Bool.or_eq_true, beq_iff_eq] at text
      rcases List.mem_cons.mp member with rfl | member
      · exact text.1.elim (fun pchar => .inr (.inr pchar)) .inl
      · exact ih text.2 member

theorem isText_of_cons {path : Bytes} (text : isText (slash :: path) = true) :
    isText path = true := by
  rw [isText, Bool.and_eq_true] at text
  · exact text.2
  · exact nofun

/-- A text of path characters is parsed to itself if and only if it has no segment
of dots, as long as none of these characters is encoded. -/
theorem parse_eq_iff_of_isText {path : Bytes} (text : isText path = true)
    (kept : ∀ b, b = percent ∨ isPchar b = true → encodes b = false) :
    parse encodes (slash :: path) = slash :: path ↔
      ∀ segment ∈ path.splitOn slash, isDot segment = false := by
  rw [parse_eq_iff]
  have plain : backslash ∉ path := by
    intro member
    rcases mem_of_isText text member with slashed | encoded | pchar
    · cases slashed
    · cases encoded
    · exact absurd pchar (by decide)
  have written : ∀ segment ∈ path.splitOn slash, encode encodes segment = segment := by
    intro segment split
    have octets : ∀ b ∈ segment, encodes b = false := by
      intro b inside
      rw [List.splitOn_eq_splitOnP] at split
      obtain ⟨member, notSlash⟩ := mem_splitOnP split inside
      refine kept b ((mem_of_isText text member).resolve_left ?_)
      exact beq_eq_false_iff_ne.mp notSlash
    have singles : segment.flatMap (fun b => if encodes b then percentEncode b else [b]) =
        segment.flatMap fun b => [b] := by
      apply List.flatMap_congr
      intro b inside
      rw [octets b inside]
      rfl
    rw [encode, singles]
    exact List.flatMap_pure_eq_map id segment |>.trans (List.map_id segment)
  exact ⟨fun both segment member => (both.2 segment member).2,
    fun notDot => ⟨plain, fun segment member => ⟨written segment member, notDot segment member⟩⟩⟩

end Path

inductive Scheme
  | http
  | https
  deriving DecidableEq, Repr

def Scheme.text : Scheme → Bytes
  | .http => utf8 "http"
  | .https => utf8 "https"

/-- Lower case, for `A` to `Z`. -/
def Ascii.toLower (b : UInt8) : UInt8 := if 0x41 ≤ b && b ≤ 0x5A then b + 0x20 else b

/-- The scheme that a text is, in either case. -/
def Scheme.ofText? (text : Bytes) : Option Scheme :=
  if text.map toLower = Scheme.http.text then some .http
  else if text.map toLower = Scheme.https.text then some .https
  else none

/-- What a path ends with. -/
def endsPath (b : UInt8) : Bool := b == question || b == hash

/-- What an authority ends with. -/
def endsAuthority (b : UInt8) : Bool := Path.isSlash b || endsPath b

/-- Credentials with their at sign, host, and port with its colon unless it is the
scheme's own. -/
structure Authority where
  userinfo : Bytes
  host : Bytes
  port : Bytes
  nonempty : host ≠ []
  plain : ∀ b ∈ userinfo ++ host ++ port, endsAuthority b = false
  deriving DecidableEq

def Authority.text (authority : Authority) : Bytes :=
  authority.userinfo ++ authority.host ++ authority.port

/-- A URL with an absolute path. -/
structure Url where
  scheme : Scheme
  authority : Authority
  path : Bytes
  query : Option Bytes
  fragment : Option Bytes
  rooted : path.head? = some slash
  plain : ∀ b ∈ path, endsPath b = false
  deriving DecidableEq

/-- What reading a URL is left to. -/
structure UrlLibrary where
  /-- The octets of a path that are percent-encoded. -/
  encodes : UInt8 → Bool
  /-- The authority a text of a scheme is read as, if it is one. -/
  authority : Scheme → Bytes → Option Authority
  /-- The octets a query is read as. -/
  query : Bytes → Bytes

namespace Url

/-- The text of a URL. -/
def text (url : Url) : Bytes :=
  url.scheme.text ++ colon :: slash :: slash :: url.authority.text ++ url.path ++
    url.query.elim [] (question :: ·) ++ url.fragment.elim [] (hash :: ·)

variable (library : UrlLibrary)

theorem rooted_parse (path : Bytes) :
    (Path.parse library.encodes path).head? = some slash := rfl

/-- Parsing a path adds no question mark and no hash. -/
theorem plain_parse {path : Bytes} (plain : ∀ b ∈ path, endsPath b = false) :
    ∀ b ∈ Path.parse library.encodes path, endsPath b = false := by
  have written : ∀ b ∈ percent :: Path.hexDigits, endsPath b = false :=
    forall_of_not_any rfl
  intro b member
  rcases List.mem_cons.mp member with rfl | member
  · rfl
  · rcases Path.mem_intercalate member with rfl | ⟨segment, resolved, inside⟩
    · rfl
    · rcases (Path.mem_resolved library.encodes resolved inside).2 with kept | encoded
      · exact plain b (Path.mem_of_mem_unrooted kept)
      · exact written b encoded

/-- Put a path in place of another. -/
def setPath (url : Url) (path : Bytes) (plain : ∀ b ∈ path, endsPath b = false) : Url :=
  { url with
    path := Path.parse library.encodes path
    rooted := rooted_parse library path
    plain := plain_parse library plain }

/-- Put a query in place of another. -/
def setQuery (url : Url) (query : Option Bytes) : Url :=
  { url with query := query.map library.query }

/-- Read a URL of one of the schemes. -/
def parse (text : Bytes) : Option Url :=
  let scheme := text.takeWhile (· != colon)
  -- The slashes before the authority may be any number.
  let rest := ((text.dropWhile (· != colon)).drop 1).dropWhile Path.isSlash
  let authority := rest.takeWhile fun b => !endsAuthority b
  let rest := rest.dropWhile fun b => !endsAuthority b
  let path := rest.takeWhile fun b => !endsPath b
  let rest := rest.dropWhile fun b => !endsPath b
  let query := rest.takeWhile (· != hash)
  let fragment := rest.dropWhile (· != hash)
  (Scheme.ofText? scheme).bind fun scheme =>
    (library.authority scheme authority).map fun authority =>
      { scheme, authority
        path := Path.parse library.encodes path
        query := if query = [] then none else some (library.query query.tail)
        fragment := if fragment = [] then none else some fragment.tail
        rooted := rooted_parse library path
        plain := plain_parse library fun _ member => by
          simpa only [Bool.not_eq_eq_eq_not, Bool.not_true] using List.mem_takeWhile_imp member }

/-- A text up to where an octet stops it. -/
theorem while_append {α : Type} {keeps : α → Bool} {first rest : List α}
    (kept : ∀ a ∈ first, keeps a = true) (stops : ∀ a ∈ rest.head?, keeps a = false) :
    (first ++ rest).takeWhile keeps = first ∧ (first ++ rest).dropWhile keeps = rest := by
  rw [List.takeWhile_append_of_pos kept, List.dropWhile_append_of_pos kept]
  cases rest with
  | nil => exact ⟨List.append_nil first, rfl⟩
  | cons a rest =>
      have stop : ¬ keeps a = true := by rw [stops a rfl]; exact Bool.false_ne_true
      rw [List.takeWhile_cons_of_neg stop, List.dropWhile_cons_of_neg stop]
      exact ⟨List.append_nil first, rfl⟩

theorem ofText?_text (scheme : Scheme) : Scheme.ofText? scheme.text = some scheme := by
  cases scheme <;> decide

/-- **A URL is read from its scheme, authority, path and query.** -/
theorem parse_append {scheme : Scheme} {authority : Authority}
    (known : library.authority scheme authority.text = some authority) {path : Bytes}
    (rooted : path.head? = some slash) (plain : ∀ b ∈ path, endsPath b = false)
    (query : Option Bytes) :
    ∃ url, parse library (scheme.text ++ colon :: slash :: slash :: authority.text ++ path ++
        query.elim [] (question :: ·)) = some url ∧
      url.scheme = scheme ∧ url.authority = authority ∧
        url.path = Path.parse library.encodes path := by
  have scheme_colon : ∀ b ∈ scheme.text, (b != colon) = true := by
    cases scheme <;> exact forall_of_all rfl
  have unslashed : ∀ b ∈ authority.text, endsAuthority b = false := authority.plain
  have path_stops : ∀ b ∈ (query.elim [] (question :: ·)).head?, (!endsPath b) = false := by
    cases query with
    | none => exact nofun
    | some query => exact fun b same => by cases same; rfl
  have authority_stops :
      ∀ b ∈ (path ++ query.elim [] (question :: ·)).head?, (!endsAuthority b) = false := by
    intro b same
    rw [List.head?_append, rooted] at same
    cases same
    rfl
  obtain ⟨first, others, shape⟩ : ∃ first others, authority.text = first :: others := by
    apply List.exists_cons_of_ne_nil
    intro none
    apply authority.nonempty
    exact (List.append_eq_nil_iff.mp (List.append_eq_nil_iff.mp none).1).2
  have unslashed_first : ¬ Path.isSlash first = true := by
    have plain := unslashed first (shape ▸ List.mem_cons_self)
    rw [endsAuthority, Bool.or_eq_false_iff] at plain
    rw [plain.1]
    exact Bool.false_ne_true
  let rest : Bytes := path ++ query.elim [] (question :: ·)
  have scheme_part : (scheme.text ++ colon :: slash :: slash :: (authority.text ++ rest)).takeWhile
        (· != colon) = scheme.text ∧
      (scheme.text ++ colon :: slash :: slash :: (authority.text ++ rest)).dropWhile
        (· != colon) = colon :: slash :: slash :: (authority.text ++ rest) :=
    while_append scheme_colon fun b same => by cases same; rfl
  have slashes : (slash :: slash :: (authority.text ++ rest)).dropWhile Path.isSlash =
      authority.text ++ rest := by
    rw [List.dropWhile_cons_of_pos rfl, List.dropWhile_cons_of_pos rfl, shape, List.cons_append,
      List.dropWhile_cons_of_neg unslashed_first]
  have authority_part : (authority.text ++ rest).takeWhile (fun b => !endsAuthority b) =
        authority.text ∧
      (authority.text ++ rest).dropWhile (fun b => !endsAuthority b) = rest :=
    while_append (fun b member => by rw [unslashed b member]; rfl) authority_stops
  have path_part : rest.takeWhile (fun b => !endsPath b) = path ∧
      rest.dropWhile (fun b => !endsPath b) = query.elim [] (question :: ·) :=
    while_append (fun b member => by rw [plain b member]; rfl) path_stops
  have regrouped : scheme.text ++ colon :: slash :: slash :: authority.text ++ path ++
      query.elim [] (question :: ·) =
        scheme.text ++ colon :: slash :: slash :: (authority.text ++ rest) := by
    simp only [rest, List.append_assoc, List.cons_append]
  rw [regrouped]
  simp only [parse, scheme_part, List.drop_one, List.tail_cons, slashes, authority_part, path_part,
    ofText?_text, Option.bind_some, known, Option.map_some]
  exact ⟨_, rfl, rfl, rfl, rfl⟩

end Url

end Wire
