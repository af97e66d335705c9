import Debitmetre.Gateway.Interruption
import Debitmetre.Gateway.Lifecycle
import Debitmetre.Wire.Json.Written

/-!
# The mock upstream

The upstream of a smoke run answers every request with padding, cut into pieces
that are events of their own and tell nothing, and with a terminal event that comes
last.  So whatever of the response is mirrored, it is metered if and only if all of
it is.
-/

namespace Debitmetre.Smoke

open Wire Wire.Json Wire.Ascii

/-- `MOCK_MODEL`. -/
def mockModel : String := "mock-model"

/-- The data of the terminal event. -/
def terminalData : String :=
  "\x7b\"type\":\"response.completed\",\"response\":\x7b\"id\":\"resp_mock\",\"model\":\"" ++
    mockModel ++ "\",\"usage\":\x7b\"input_tokens\":20,\"input_tokens_details\":" ++
    "\x7b\"cached_tokens\":5,\"cache_write_tokens\":5\x7d,\"output_tokens\":15," ++
    "\"output_tokens_details\":\x7b\"reasoning_tokens\":5\x7d,\"total_tokens\":35\x7d\x7d\x7d"

/-- The terminal event, with its name. -/
def terminal : String :=
  "event: response.completed\n" ++ ("data: " ++ terminalData ++ "\n\n")

/-- The data of a piece of padding. -/
def deltaData (seq size : Nat) : String :=
  "\x7b\"type\":\"response.output_text.delta\",\"seq\":" ++ toString seq ++ ",\"delta\":\"" ++
    String.ofList (List.replicate size 'd') ++ "\"\x7d"

/-- The loop that cuts the padding into pieces. -/
def padding (seq remaining : Nat) : List String :=
  if 0 < remaining then
    let this := min remaining 512
    ("data: " ++ deltaData seq this ++ "\n\n") :: padding (seq + 1) (remaining - this)
  else []
termination_by remaining

/-- The chunks that `mock_handler` responds with. -/
def mockChunks (responseBytes : UInt64) : List Bytes :=
  (padding 0 (responseBytes.toNat - (utf8 terminal).length)).map utf8 ++ [utf8 terminal]

/-- The body of a response of the mock upstream. -/
def mockBody (responseBytes : UInt64) : Bytes := (mockChunks responseBytes).flatten

/-- The usage that the terminal event tells of. -/
def mockUsage : Usage := ⟨some 20, some 10, some 5, some 5, some 15, some 5, some 35⟩

/-- A number is encoded as its decimal digits. -/
theorem utf8_toString (n : Nat) : utf8 (toString n) = decimal n := by
  rw [Nat.toString_eq_ofList_toDigits, utf8_ofList, decimal, List.map_eq_flatMap]
  apply List.flatMap_congr
  intro c member
  have digit := Nat.isDigit_of_mem_toDigits (by decide) (by decide) member
  have small : c.val ≤ 127 := by
    simp only [Char.isDigit, Bool.and_eq_true, decide_eq_true_eq] at digit
    exact UInt32.le_trans digit.2 (by decide)
  rw [String.utf8EncodeChar_eq_singleton (Char.utf8Size_eq_one_iff.mpr small)]
  rfl

/-- Plain octets are not escaped. -/
theorem escape_eq_self {octets : Bytes} (plain : ∀ b ∈ octets, escapeByte b = [b]) :
    escape octets = octets := by
  rw [escape, List.flatMap_congr plain, List.flatMap_singleton']

/-- The padding of a piece. -/
theorem utf8_replicate (size : Nat) :
    utf8 (String.ofList (List.replicate size 'd')) = List.replicate size 0x64 := by
  rw [utf8_ofList]
  induction size with
  | zero => rfl
  | succ size ih => rw [List.replicate_succ, List.flatMap_cons, ih, List.replicate_succ]; rfl

/-- The tree of a piece of padding. -/
def deltaTree (seq size : Nat) : Json :=
  Json.object [("type", ofString "response.output_text.delta"), ("seq", ofNat seq),
    ("delta", ofString (String.ofList (List.replicate size 'd')))]

/-- The octets of a text with a number and a piece of padding. -/
theorem utf8_numbered {start middle last : String} {octets octets' octets'' : Bytes}
    (first : utf8 start = octets) (second : utf8 middle = octets') (third : utf8 last = octets'')
    (seq size : Nat) :
    utf8 (start ++ toString seq ++ middle ++ String.ofList (List.replicate size 'd') ++ last) =
      octets ++ (decimal seq ++ (octets' ++ (List.replicate size 0x64 ++ octets''))) := by
  rw [utf8_append, utf8_append, utf8_append, utf8_append, first, second, third, utf8_toString,
    utf8_replicate, List.append_assoc, List.append_assoc, List.append_assoc]

/-- A piece of padding is what is written for its tree. -/
theorem utf8_deltaData (seq size : Nat) :
    utf8 (deltaData seq size) = print (deltaTree seq size) := by
  have start : utf8 "\x7b\"type\":\"response.output_text.delta\",\"seq\":" =
      lbrace :: (quoted (.ofString "type") ++ colon ::
        (quoted (.ofString "response.output_text.delta") ++ comma ::
          (quoted (.ofString "seq") ++ [colon]))) := by decide +kernel
  have middle : utf8 ",\"delta\":\"" =
      comma :: (quoted (.ofString "delta") ++ [colon, quote]) := by decide +kernel
  have last : utf8 "\"\x7d" = [quote, rbrace] := by decide +kernel
  have padded : quoted (.ofString (String.ofList (List.replicate size 'd'))) =
      quote :: (List.replicate size 0x64 ++ [quote]) := by
    have plain : escape (List.replicate size 0x64) = List.replicate size 0x64 := by
      apply escape_eq_self
      intro b member
      rw [List.eq_of_mem_replicate member]
      rfl
    change quote :: (escape (utf8 (String.ofList (List.replicate size 'd'))) ++ [quote]) = _
    rw [utf8_replicate, plain]
  refine (utf8_numbered start middle last seq size).trans ?_
  simp only [deltaTree, Json.object, ofString, ofNat, List.map_cons, List.map_nil, print,
    printMembers, printMoreMembers, NumLit.ofNat, padded, List.append_assoc, List.cons_append,
    List.nil_append]

section Readers

variable {F : Type} (f64 : NumLit → Option F)

/-- What a piece of padding is read as. -/
def deltaValues (seq size : Nat) : List (String × Value F) :=
  [("type", .string "response.output_text.delta"), ("seq", .number (.posInt seq.toUInt64)),
    ("delta", .string (String.ofList (List.replicate size 'd')))]

theorem fromSlice_deltaData {seq : Nat} (small : seq < UInt64.size) (size : Nat) :
    Json.fromSlice f64 (utf8 (deltaData seq size)) = some (mapOf (deltaValues seq size)) := by
  have text := readAs_ofString f64 0
  have read : ReadAs f64 1 (deltaTree seq size) (mapOf (deltaValues seq size)) :=
    readAs_object f64 <| .cons ⟨rfl, text _⟩ <| .cons ⟨rfl, readAs_ofNat f64 0 small⟩ <|
      .cons ⟨rfl, text _⟩ .nil
  rw [utf8_deltaData]
  exact read.fromSlice (by decide)

/-- Padding tells nothing. -/
theorem terminalOf_deltaData (readers : Readers F) {seq : Nat} (small : seq < UInt64.size)
    (size : Nat) : terminalOf readers (deltaData seq size) = none := by
  have kind : ((mapOf (deltaValues seq size) : Value F).get "type").bind Value.asStr =
      some "response.output_text.delta" := by
    rw [get_mapOf]
    rfl
  rw [terminalOf, fromSlice_deltaData readers.f64 small, Option.bind_some, kind, Option.bind_some,
    if_neg (by decide)]

def cachedTree : Json :=
  Json.object [("cached_tokens", ofNat 5), ("cache_write_tokens", ofNat 5)]

def reasoningTree : Json := Json.object [("reasoning_tokens", ofNat 5)]

def usageTree : Json :=
  Json.object [("input_tokens", ofNat 20), ("input_tokens_details", cachedTree),
    ("output_tokens", ofNat 15), ("output_tokens_details", reasoningTree),
    ("total_tokens", ofNat 35)]

def responseTree : Json :=
  Json.object [("id", ofString "resp_mock"), ("model", ofString mockModel), ("usage", usageTree)]

/-- The tree of the terminal event. -/
def terminalTree : Json :=
  Json.object [("type", ofString "response.completed"), ("response", responseTree)]

/-- The terminal event is what is written for its tree. -/
theorem utf8_terminalData : utf8 terminalData = print terminalTree := by decide +kernel

/-- A count of tokens. -/
def amount (n : Nat) : Value F := .number (.posInt n.toUInt64)

def cachedValues : List (String × Value F) :=
  [("cached_tokens", amount 5), ("cache_write_tokens", amount 5)]

def reasoningValues : List (String × Value F) := [("reasoning_tokens", amount 5)]

def usageValues : List (String × Value F) :=
  [("input_tokens", amount 20), ("input_tokens_details", mapOf cachedValues),
    ("output_tokens", amount 15), ("output_tokens_details", mapOf reasoningValues),
    ("total_tokens", amount 35)]

/-- What the response of the terminal event is read as. -/
def responseValues : List (String × Value F) :=
  [("id", .string "resp_mock"), ("model", .string mockModel), ("usage", mapOf usageValues)]

/-- The terminal event can be read. -/
theorem fromSlice_terminalData :
    Json.fromSlice f64 (utf8 terminalData) =
      some (mapOf
        [("type", .string "response.completed"), ("response", mapOf responseValues)]) := by
  have number (depth : Nat) {n : Nat} (small : n < UInt64.size) :
      ReadAs f64 depth (ofNat n) (amount n) := readAs_ofNat f64 depth small
  have text := readAs_ofString f64
  have cached : ReadAs f64 1 cachedTree (mapOf cachedValues) :=
    readAs_object f64 <| .cons ⟨rfl, number 0 (by decide)⟩ <| .cons ⟨rfl, number 0 (by decide)⟩ .nil
  have reasoning : ReadAs f64 1 reasoningTree (mapOf reasoningValues) :=
    readAs_object f64 <| .cons ⟨rfl, number 0 (by decide)⟩ .nil
  have usage : ReadAs f64 2 usageTree (mapOf usageValues) :=
    readAs_object f64 <| .cons ⟨rfl, number 1 (by decide)⟩ <| .cons ⟨rfl, cached⟩ <|
      .cons ⟨rfl, number 1 (by decide)⟩ <| .cons ⟨rfl, reasoning⟩ <|
      .cons ⟨rfl, number 1 (by decide)⟩ .nil
  have response : ReadAs f64 3 responseTree (mapOf responseValues) :=
    readAs_object f64 <| .cons ⟨rfl, text 2 _⟩ <| .cons ⟨rfl, text 2 _⟩ <| .cons ⟨rfl, usage⟩ .nil
  have read : ReadAs f64 4 terminalTree
      (mapOf [("type", .string "response.completed"), ("response", mapOf responseValues)]) :=
    readAs_object f64 <| .cons ⟨rfl, text 3 _⟩ <| .cons ⟨rfl, response⟩ .nil
  rw [utf8_terminalData]
  exact read.fromSlice (by decide)

/-- The response of the terminal event. -/
def mockResponse : List (String × Value F) :=
  responseValues.foldl (fun held member => Value.insert member.1 member.2 held) []

theorem lookup_mockResponse (name : String) :
    (mockResponse : List (String × Value F)).lookup name =
      (responseValues : List (String × Value F)).reverse.lookup name :=
  get_mapOf responseValues name

/-- **The terminal event is one**, with its response. -/
theorem terminalOf_terminalData (readers : Readers F) :
    terminalOf readers terminalData = some ("response.completed", some mockResponse) := by
  have members : ∀ name, (mapOf [("type", .string "response.completed"),
      ("response", mapOf responseValues)] : Value F).get name =
        [("response", mapOf responseValues), ("type", .string "response.completed")].lookup name :=
    get_mapOf _
  have kind : [("response", (mapOf responseValues : Value F)),
      ("type", .string "response.completed")].lookup "type" =
        some (.string "response.completed") := rfl
  have response : [("response", (mapOf responseValues : Value F)),
      ("type", .string "response.completed")].lookup "response" = some (.object mockResponse) := rfl
  rw [terminalOf, fromSlice_terminalData, Option.bind_some, members, members, kind, response]
  rfl

/-- The counts of the terminal event. -/
theorem extractRawUsage_mock :
    extractRawUsage (mapOf usageValues : Value F) =
      ⟨some 20, some 5, some 5, some 15, some 5, some 35⟩ := by
  have usage := get_mapOf (F := F) usageValues
  have cached := get_mapOf (F := F) cachedValues
  have reasoning := get_mapOf (F := F) reasoningValues
  have inputDetails : (usageValues : List (String × Value F)).reverse.lookup
      "input_tokens_details" = some (mapOf cachedValues) := rfl
  have outputDetails : (usageValues : List (String × Value F)).reverse.lookup
      "output_tokens_details" = some (mapOf reasoningValues) := rfl
  simp only [extractRawUsage, nested_cons, usage, inputDetails, outputDetails,
    Option.bind_some, cached, reasoning]
  rfl

end Readers

/-- A text that is visible has no control characters. -/
theorem notMem_of_visible {text : String} (visible : Visible (utf8 text)) {c : Char}
    (control : c.toNat < 0x20) : c ∉ text.toList := by
  intro member
  have small : c.val ≤ 127 := by
    rw [UInt32.le_iff_toNat_le]
    exact Nat.le_trans (Nat.le_of_lt control) (by decide)
  have encoded : c.val.toUInt8 ∈ utf8 text := by
    rw [utf8_eq, List.mem_flatMap]
    refine ⟨c, member, ?_⟩
    rw [String.utf8EncodeChar_eq_singleton (Char.utf8Size_eq_one_iff.mpr small)]
    exact List.mem_singleton_self _
  have seen := UInt8.le_iff_toNat_le.mp (visible _ encoded)
  have same : c.val.toUInt8.toNat = c.toNat := by
    rw [UInt32.toNat_toUInt8]
    exact Nat.mod_eq_of_lt (Nat.lt_trans control (by decide))
  rw [same] at seen
  exact absurd control (Nat.not_lt.mpr seen)

/-- A piece of padding is one line. -/
theorem notMem_deltaData (seq size : Nat) {c : Char} (control : c.toNat < 0x20) :
    c ∉ (deltaData seq size).toList := by
  apply notMem_of_visible _ control
  rw [utf8_deltaData]
  exact visible_print _

/-- An event whose data is a single line. -/
theorem event_eq {text : String} (single : '\n' ∉ text.toList) :
    Sse.event text = "data: " ++ text ++ "\n\n" := by
  apply String.toList_inj.mp
  have kept : (text.toList.flatMap fun c => if c = '\n' then '\n' :: Sse.dataHeader else [c]) =
      text.toList := by
    conv => rhs; rw [← List.flatMap_singleton' text.toList]
    apply List.flatMap_congr
    intro c member
    have other : c ≠ '\n' := by
      rintro rfl
      exact single member
    rw [if_neg other]
  rw [Sse.event, String.toList_ofList, Sse.dataLines, kept, String.toList_append,
    String.toList_append]
  rfl

/-- Each piece of padding is an event of its own. -/
theorem exists_padding (seq remaining : Nat) :
    ∃ texts : List String, padding seq remaining = texts.map Sse.event ∧
      ∀ text ∈ texts, ∃ number < seq + remaining, ∃ size, text = deltaData number size := by
  induction seq, remaining using padding.induct with
  | case1 seq remaining more this ih =>
      obtain ⟨texts, same, each⟩ := ih
      refine ⟨deltaData seq this :: texts, ?_, ?_⟩
      · rw [padding, if_pos more]
        change _ :: padding (seq + 1) (remaining - this) = _
        rw [same, List.map_cons, event_eq (notMem_deltaData seq this (by decide))]
      · rw [List.forall_mem_cons]
        refine ⟨⟨seq, Nat.lt_add_of_pos_right more, this, rfl⟩, fun text member => ?_⟩
        obtain ⟨number, below, size, data⟩ := each text member
        refine ⟨number, ?_, size, data⟩
        have some_padding : 1 ≤ this := Nat.le_min.mpr ⟨more, by decide⟩
        omega
  | case2 seq remaining none =>
      refine ⟨[], ?_, List.forall_mem_nil _⟩
      rw [padding, if_neg none]
      rfl

/-- Events that follow each other are read back. -/
theorem run_events {texts : List String} (noCr : ∀ text ∈ texts, '\r' ∉ text.toList) :
    Sse.Reader.start.run (texts.flatMap fun text => (Sse.event text).toList) =
      (.start, texts.map String.toList) := by
  induction texts with
  | nil => rfl
  | cons text texts ih =>
      obtain ⟨first, rest⟩ := List.forall_mem_cons.mp noCr
      rw [List.flatMap_cons, Sse.Reader.run_append,
        Sse.Reader.run_event (⟨rfl, rfl⟩ : Sse.Reader.start.Between) first, ih rest]
      rfl

/-- Padding that goes on with some text. -/
def padded (texts : List String) (rest : List Char) : String :=
  String.ofList ((texts.flatMap fun text => (Sse.event text).toList) ++ rest)

/-- What the padding of a body can be. -/
def IsPadding (texts : List String) : Prop :=
  ∀ text ∈ texts, ∃ number < UInt64.size, ∃ size, text = deltaData number size

/-- Chunks of padding are the padding in one piece. -/
theorem utf8_padded (texts : List String) (last : String) :
    ((texts.map Sse.event).map utf8 ++ [utf8 last]).flatten = utf8 (padded texts last.toList) := by
  have octets : utf8 ∘ Sse.event = fun text =>
      (Sse.event text).toList.flatMap String.utf8EncodeChar :=
    funext fun text => utf8_eq (Sse.event text)
  rw [List.flatten_append, padded, utf8_ofList, List.flatMap_append, List.flatMap_assoc, ← utf8_eq,
    List.map_map, ← List.flatMap_def, List.flatten_singleton, octets]

/-- The padding of a size is a list of events. -/
theorem exists_isPadding {remaining : Nat} (small : remaining < UInt64.size) :
    ∃ texts, padding 0 remaining = texts.map Sse.event ∧ IsPadding texts := by
  obtain ⟨texts, same, each⟩ := exists_padding 0 remaining
  refine ⟨texts, same, ?_⟩
  intro text member
  obtain ⟨number, below, size, data⟩ := each text member
  rw [Nat.zero_add] at below
  exact ⟨number, Nat.lt_trans below small, size, data⟩

/-- Every body is padding and the terminal event. -/
theorem exists_padded (responseBytes : UInt64) :
    ∃ texts, IsPadding texts ∧ mockBody responseBytes = utf8 (padded texts terminal.toList) := by
  obtain ⟨texts, same, padding⟩ :=
    exists_isPadding (Nat.lt_of_le_of_lt (Nat.sub_le _ (utf8 terminal).length)
      responseBytes.toNat_lt)
  refine ⟨texts, padding, ?_⟩
  rw [mockBody, mockChunks, same]
  exact utf8_padded texts terminal

namespace IsPadding

variable {texts : List String}

theorem noCr (padding : IsPadding texts) : ∀ text ∈ texts, '\r' ∉ text.toList := by
  intro text member
  obtain ⟨number, -, size, rfl⟩ := padding text member
  exact notMem_deltaData number size (by decide)

theorem other {F : Type} (padding : IsPadding texts) (readers : Readers F) :
    ∀ data ∈ texts, terminalOf readers data = none := by
  intro text member
  obtain ⟨number, small, size, rfl⟩ := padding text member
  exact terminalOf_deltaData readers small size

end IsPadding

/-- A body starts with the name of a field. -/
theorem head_padded (texts : List String) {rest : List Char} (field : rest.head? = some 'e') :
    ∃ c chars, (padded texts rest).toList = c :: chars ∧ (c = 'd' ∨ c = 'e') := by
  rw [padded, String.toList_ofList]
  cases texts with
  | nil =>
      obtain ⟨chars, rfl⟩ := List.head?_eq_some_iff.mp field
      exact ⟨'e', chars, rfl, .inr rfl⟩
  | cons text texts =>
      rw [List.flatMap_cons, Sse.event, String.toList_ofList]
      exact ⟨'d', _, rfl, .inl rfl⟩

/-- The events of padding, and those of what it goes on with. -/
theorem events_padded {texts : List String} (padding : IsPadding texts) {rest : List Char}
    (field : rest.head? = some 'e') :
    Sse.events (padded texts rest) =
      texts ++ (Sse.Reader.start.run rest).2.map String.ofList := by
  obtain ⟨c, chars, same, starts⟩ := head_padded texts field
  have ordinary : c ≠ '\uFEFF' := by
    rcases starts with rfl | rfl <;> decide
  have kept : Sse.stripBom (c :: chars) = c :: chars := Sse.stripBom_append [] ordinary chars
  rw [Sse.events, same, kept, ← same, padded, String.toList_ofList, Sse.Reader.run_append,
    run_events padding.noCr, List.map_append, List.map_map]
  congr 1
  exact (List.map_congr_left fun text _ => String.ofList_toList).trans (List.map_id _)

/-- The data of the terminal event are one line. -/
theorem notMem_terminalData {c : Char} (control : c.toNat < 0x20) : c ∉ terminalData.toList := by
  apply notMem_of_visible _ control
  rw [utf8_terminalData]
  exact visible_print _

/-- The line before the data of the terminal event. -/
def eventLine : List Char := "event: response.completed\n".toList

/-- The terminal event without the line feed that dispatches it. -/
def terminalStart : List Char :=
  eventLine ++ (Sse.dataHeader ++ terminalData.toList ++ ['\n'])

/-- An event with a line before its data. -/
theorem toList_event (line : String) {data : String} (single : '\n' ∉ data.toList) :
    (line ++ ("data: " ++ data ++ "\n\n")).toList = line.toList ++ (Sse.event data).toList := by
  rw [event_eq single, String.toList_append]

theorem toList_terminal : terminal.toList = eventLine ++ (Sse.event terminalData).toList :=
  toList_event _ (notMem_terminalData (by decide))

theorem toList_event_concat (line data : String) :
    (line ++ ("data: " ++ data ++ "\n\n")).toList =
      line.toList ++ (Sse.dataHeader ++ data.toList ++ ['\n']) ++ ['\n'] := by
  have header : "data: ".toList = Sse.dataHeader := by decide +kernel
  have ended : "\n\n".toList = ['\n'] ++ ['\n'] := by decide +kernel
  rw [String.toList_append, String.toList_append, String.toList_append, header, ended]
  simp only [List.append_assoc]

theorem toList_terminal_concat : terminal.toList = terminalStart ++ ['\n'] :=
  toList_event_concat _ _

theorem run_eventLine : Sse.Reader.start.run eventLine = (.start, []) := by decide +kernel

/-- The terminal event is framed as one event. -/
theorem run_terminal : (Sse.Reader.start.run terminal.toList).2 = [terminalData.toList] := by
  rw [toList_terminal, Sse.Reader.run_append, run_eventLine,
    Sse.Reader.run_event (⟨rfl, rfl⟩ : Sse.Reader.start.Between) (notMem_terminalData (by decide))]
  rfl

/-- A piece of a line dispatches nothing. -/
theorem run_line {line : List Char} (plain : ∀ c ∈ line, c ≠ '\n' ∧ c ≠ '\r')
    (reader : Sse.Reader) : ∃ afterCr,
      reader.run line = (⟨reader.line ++ line, reader.data, afterCr⟩, []) := by
  induction line generalizing reader with
  | nil => exact ⟨reader.afterCr, by rw [List.append_nil]; rfl⟩
  | cons c line ih =>
      obtain ⟨⟨notLf, notCr⟩, rest⟩ := List.forall_mem_cons.mp plain
      obtain ⟨afterCr, read⟩ := ih rest ⟨reader.line ++ [c], reader.data, false⟩
      refine ⟨afterCr, ?_⟩
      rw [Sse.Reader.run, Sse.Reader.step_ordinary reader notLf notCr, read, List.append_assoc]
      rfl

/-- The terminal event is dispatched by its last character. -/
theorem run_terminalStart : (Sse.Reader.start.run terminalStart).2 = [] := by
  have plain : ∀ c ∈ terminalData.toList, c ≠ '\n' ∧ c ≠ '\r' := by
    intro c member
    constructor
    · rintro rfl
      exact notMem_terminalData (by decide) member
    · rintro rfl
      exact notMem_terminalData (by decide) member
  obtain ⟨afterCr, read⟩ := run_line plain ⟨Sse.dataHeader, [], false⟩
  have header : Sse.Reader.start.run Sse.dataHeader = (⟨Sse.dataHeader, [], false⟩, []) :=
    Sse.Reader.run_dataHeader [] false
  rw [terminalStart, Sse.Reader.run_append, run_eventLine, Sse.Reader.run_append,
    Sse.Reader.run_append, header, read]
  cases afterCr <;> rfl

theorem head_terminalStart : terminalStart.head? = some 'e' := rfl

/-- The terminal event starts with the name of a field. -/
theorem head_terminal : terminal.toList.head? = some 'e' := by
  rw [toList_terminal]
  rfl

/-- The events of a body are its padding and the terminal event. -/
theorem events_body {texts : List String} (padding : IsPadding texts) :
    Sse.events (padded texts terminal.toList) = texts ++ [terminalData] := by
  rw [events_padded padding head_terminal, run_terminal, List.map_singleton, String.ofList_toList]

/-- The events of a body that is cut off are padding. -/
theorem events_cut {texts : List String} (padding : IsPadding texts) {first : String}
    (cut : first.toList <+: (padded texts terminal.toList).toList)
    (part : first ≠ padded texts terminal.toList) : Sse.events first <+: texts := by
  have shorter : first.toList <+: (padded texts terminalStart).toList := by
    rw [padded, String.toList_ofList] at cut ⊢
    rw [toList_terminal_concat, ← List.append_assoc, List.prefix_concat_iff] at cut
    rcases cut with whole | shorter
    · refine absurd ?_ part
      apply String.toList_inj.mp
      rw [whole, padded, String.toList_ofList, List.append_assoc, ← toList_terminal_concat]
    · exact shorter
  have starts := Sse.events_starts shorter
  rwa [events_padded padding head_terminalStart, run_terminalStart, List.map_nil,
    List.append_nil] at starts

section Metering

variable {F : Type} {readers : Readers F}

theorem usageMember_mock :
    usageMember (mockResponse : List (String × Value F)) = .object (mapOf usageValues) := by
  have usage : (mockResponse : List (String × Value F)).lookup "usage" =
      some (mapOf usageValues) := lookup_mockResponse "usage"
  rw [usageMember, usage]
  rfl

theorem responseModel_mock :
    responseModel (mockResponse : List (String × Value F)) = some mockModel := by
  rw [responseModel, lookup_mockResponse]
  rfl

/-- What the observer makes of the terminal event. -/
theorem terminalBody_mock :
    terminalBody "response.completed" (mockResponse : List (String × Value F)) (some mockModel) =
      ⟨⟨some mockModel, some mockUsage, .complete, none⟩, true, false⟩ := by
  have canonical : canonicalize (extractRawUsage (mapOf usageValues : Value F)) =
      (mockUsage, .complete) := by
    rw [extractRawUsage_mock]
    decide
  rw [terminalBody, Terminal.response_eq, usageMember_mock, responseModel_mock]
  simp only [canonical]
  rfl

/-- No part of a body starts with a byte order mark. -/
theorem unmarked_of_cut {responseBytes : UInt64} {mirror : Bytes}
    (cut : mirror <+: mockBody responseBytes) : ¬ Sse.byteOrderMark <+: mirror := by
  intro marked
  obtain ⟨texts, -, same⟩ := exists_padded responseBytes
  obtain ⟨c, chars, starts, field⟩ := head_padded texts head_terminal
  have first := marked.trans cut
  rw [same, utf8_eq, starts, List.flatMap_cons] at first
  obtain ⟨rest, joined⟩ := first
  rcases field with rfl | rfl <;> cases (List.cons.inj joined).1

/-- A body ends in a line feed. -/
theorem getLast_padded (texts : List String) :
    (padded texts terminal.toList).toList.getLast? = some '\n' := by
  rw [padded, String.toList_ofList, toList_terminal_concat, ← List.append_assoc,
    List.getLast?_concat]

/-- The whole of a body is metered. -/
theorem parseMirror_mockBody (decodes : DecodedFraming readers)
    (responseBytes : UInt64) :
    parseMirror readers (mockBody responseBytes) (some mockModel) =
      ⟨⟨some mockModel, some mockUsage, .complete, none⟩, true, false⟩ := by
  obtain ⟨texts, padding, same⟩ := exists_padded responseBytes
  have framed : readers.eventsource (mockBody responseBytes) = texts ++ terminalData :: [] := by
    have settled : Sse.settled (padded texts terminal.toList) = padded texts terminal.toList := by
      apply Sse.settled_of_getLast
      rw [getLast_padded]
      decide
    rw [decodes.events _ (unmarked_of_cut (List.prefix_refl _)), same, decoded_utf8, settled,
      events_body padding]
  rw [parseMirror_of_events framed (padding.other readers) (List.forall_mem_nil _)
    (terminalOf_terminalData readers), terminalBody_mock]

/-- Nothing is metered of a body that is cut off. -/
theorem usage_of_cut (decodes : DecodedFraming readers) {responseBytes : UInt64}
    {mirror : Bytes} (cut : mirror <+: mockBody responseBytes)
    (part : mirror ≠ mockBody responseBytes) (headerModel : Option String) :
    (parseMirror readers mirror headerModel).audit.usage = none := by
  obtain ⟨texts, padding, same⟩ := exists_padded responseBytes
  have unmarked := unmarked_of_cut cut
  rw [same] at cut part
  have silent : readers.eventsource mirror <+: texts := by
    rw [decodes.events _ unmarked]
    apply (Sse.events_starts (Sse.settled_starts _)).trans
    refine events_cut padding (decoded_starts_of_cut cut) ?_
    intro whole
    have starts := decoded_starts mirror
    rw [whole] at starts
    exact part (cut.eq_of_length_le starts.length_le)
  have unfinished : terminals readers mirror = [] := by
    rw [terminals, List.filterMap_eq_nil_iff]
    exact fun data member => padding.other readers data (silent.subset member)
  have unread : parse mirror = none := by
    obtain ⟨c, chars, starts, field⟩ := head_padded texts head_terminal
    have octets : utf8 (padded texts terminal.toList) =
        [] ++ (String.utf8EncodeChar c ++ chars.flatMap String.utf8EncodeChar) := by
      rw [utf8_eq, starts, List.flatMap_cons, List.nil_append]
    rw [octets] at cut
    refine parse_eq_none_of_refused (List.forall_mem_nil _) ?_ cut
    rcases field with rfl | rfl
    · rintro b ⟨⟩
      rfl
    · rintro b ⟨⟩
      rfl
  rw [parseMirror_of_unfinished unfinished]
  by_cases framed : readers.eventsource mirror = []
  · rw [if_neg (not_not_intro framed)]
    exact parseJsonBody_of_parse unread headerModel
  · rw [if_pos framed]
    rfl

end Metering

/-- Padding comes in a piece for each 512 octets or part of them. -/
theorem length_padding (seq remaining : Nat) :
    (padding seq remaining).length = (remaining + 511) / 512 := by
  induction seq, remaining using padding.induct with
  | case1 seq remaining more this ih =>
      rw [padding, if_pos more]
      change (padding (seq + 1) (remaining - this)).length + 1 = _
      rw [ih]
      omega
  | case2 seq remaining none =>
      rw [padding, if_neg none, Nat.eq_zero_of_not_pos none]
      rfl

theorem le_length_numbered (start middle last : String) (seq size : Nat) :
    size ≤ (utf8 (start ++ toString seq ++ middle ++ String.ofList (List.replicate size 'd') ++
      last)).length := by
  rw [utf8_numbered rfl rfl rfl]
  simp only [List.length_append, List.length_replicate]
  omega

/-- A piece is no shorter than its padding. -/
theorem le_length_event (seq size : Nat) :
    size ≤ (utf8 ("data: " ++ deltaData seq size ++ "\n\n")).length := by
  have data : size ≤ (utf8 (deltaData seq size)).length := le_length_numbered _ _ _ seq size
  rw [utf8_append, utf8_append, List.length_append, List.length_append]
  exact Nat.le_trans data (Nat.le_trans (Nat.le_add_left _ _) (Nat.le_add_right _ _))

/-- Padding is as long as was asked for. -/
theorem le_length_padding (seq remaining : Nat) :
    remaining ≤ ((padding seq remaining).map utf8).flatten.length := by
  induction seq, remaining using padding.induct with
  | case1 seq remaining more this ih =>
      have first := le_length_event seq this
      rw [padding, if_pos more]
      change remaining ≤ (utf8 ("data: " ++ deltaData seq this ++ "\n\n") ++
        ((padding (seq + 1) (remaining - this)).map utf8).flatten).length
      rw [List.length_append]
      omega
  | case2 seq remaining none =>
      rw [Nat.eq_zero_of_not_pos none]
      exact Nat.zero_le _

section Requests

open Transition

variable {F : Type} {arrival : Arrival F} {lifecycle : Lifecycle F} {responseBytes : UInt64}

/-- A response of the mock upstream, in whatever chunks it comes and wherever it is
cut off. -/
structure Replied (responseBytes : UInt64) (reply : Reply) : Prop where
  status : reply.status = 200
  openaiModel : reply.openaiModel = some mockModel
  body : reply.body.flatten <+: mockBody responseBytes

/-- A metered request that the mock upstream responds to, if the transport does not
fail. -/
structure Mocked (responseBytes : UInt64) (arrival : Arrival F) : Prop where
  metered : arrival.metered.isSome
  decodes : DecodedFraming arrival.readers
  reply : ∀ reply, arrival.reply = some reply → Replied responseBytes reply

/-- A request is recorded and all of its response was pulled. -/
def IsServed (responseBytes : UInt64) : Lifecycle F → Prop
  | .relaying _ relay =>
      (∃ pumped, relay.phase = .recorded pumped) ∧ relay.pulled.flatten = mockBody responseBytes
  | .rejected | .awaiting _ _ _ | .failed _ _ | .abandoned _ => False

/-- What is recorded of a response that was pulled to its end. -/
structure Tells (record : AuditRecord) : Prop where
  model : record.model = some mockModel
  usage : record.usage = some mockUsage
  quality : record.accountingQuality = .complete
  meteringError : record.meteringError = none

/-- The record of a response of the mock upstream. -/
theorem record_response {readers : Readers F} (decodes : DecodedFraming readers)
    {chunks : List Bytes} (cut : chunks.flatten <+: mockBody responseBytes) (stamp : Stamp)
    (machineId : String) (operation : Operation) (effort : Option String) (pumped : Pumped) :
    let record := (Upstream.response 200 (some mockModel) chunks pumped).record readers stamp
      machineId operation effort
    (chunks.flatten = mockBody responseBytes → Tells record ∧ record.outcome = pumped.outcome) ∧
      (chunks.flatten ≠ mockBody responseBytes → record.usage = none) := by
  constructor
  · intro whole
    rw [Upstream.record, StreamUsageParser.finalize_foldl_push, whole, parseMirror_mockBody decodes]
    refine ⟨⟨rfl, rfl, rfl, rfl⟩, ?_⟩
    cases pumped <;> rfl
  · intro part
    rw [record_usage, usage_of_cut decodes cut part, ite_self]

/-- What is relayed is the reply. -/
def Answered (arrival : Arrival F) : Lifecycle F → Prop
  | .relaying exchange _ => ∃ machineId operation reply, arrival.reply = some reply ∧
      exchange = arrival.exchange machineId operation reply
  | .rejected | .awaiting _ _ _ | .failed _ _ | .abandoned _ => True

/-- Every step of a request keeps the reply. -/
theorem answered_step {next : Lifecycle F} {event : Event}
    (taken : lifecycle.step arrival event = some next) (answered : Answered arrival lifecycle) :
    Answered arrival next := by
  cases lifecycle with
  | rejected | failed | abandoned => cases taken
  | awaiting machineId operation audit =>
      cases event with
      | head =>
          cases taken
          cases replied : arrival.reply with
          | some reply =>
              simp only [Lifecycle.answer, replied]
              exact ⟨machineId, operation, reply, replied, rfl⟩
          | none => cases operation <;> simp only [Lifecycle.answer, replied] <;> trivial
      | disconnect =>
          cases taken
          trivial
      | relay action =>
          cases action with
          | drain | submit | disconnect =>
              cases taken
              trivial
          | pull | finish | send | refuse | cancel | close | record | read | readEnd | drop |
              release => cases taken
  | relaying exchange relay =>
      cases event with
      | head | disconnect => cases taken
      | relay action =>
          obtain ⟨relay', -, rfl⟩ := Option.map_eq_some_iff.mp taken
          exact answered

/-- In every run what is relayed is the reply. -/
theorem answered_of_run {audit : AuditQueue} {events : List Event}
    (ran : run (Lifecycle.step arrival) (.start arrival audit) events = some lifecycle) :
    Answered arrival lifecycle := by
  refine invariant (Answered arrival) answered_step ran ?_
  rw [Lifecycle.start]
  cases arrival.accepted <;> trivial

/-- What has been pulled is a part of the body. -/
theorem pulled_of_reached {machineId machineId' : String} {operation operation' : Option Operation}
    {reply reply' : Reply} {audit : AuditQueue} {relay : Relay}
    (mocked : Mocked responseBytes arrival) (replied : arrival.reply = some reply')
    (same : arrival.exchange machineId operation reply =
      arrival.exchange machineId' operation' reply')
    (reached : Reachable (Relay.step (arrival.exchange machineId operation reply))
      (.start (arrival.exchange machineId operation reply) audit) relay) :
    relay.pulled.flatten <+: mockBody responseBytes := by
  have pulled : relay.pulled ++ relay.upstream = reply'.body :=
    (Relay.flow reached).pulled.trans (congrArg Exchange.body same)
  have body := (mocked.reply reply' replied).body
  rw [← pulled, List.flatten_append] at body
  exact (List.prefix_append _ _).trans body

/-- A request has offered one record at most, and usage is told in it if and only if the
request is served. -/
theorem offered_of_run (mocked : Mocked responseBytes arrival) {audit : AuditQueue}
    {events : List Event}
    (ran : run (Lifecycle.step arrival) (.start arrival audit) events = some lifecycle) :
    (IsServed responseBytes lifecycle → ∃ record, lifecycle.offered = [record] ∧ Tells record) ∧
      (¬ IsServed responseBytes lifecycle → lifecycle.offered.length ≤ 1 ∧
        ∀ record ∈ lifecycle.offered, record.usage = none) := by
  have comes := invariant (Lifecycle.Comes arrival) Lifecycle.comes_step ran
    (Lifecycle.comes_start arrival audit)
  have answered := answered_of_run ran
  have none (silent : lifecycle.offered = []) : lifecycle.offered.length ≤ 1 ∧
      ∀ record ∈ lifecycle.offered, record.usage = none := by
    rw [silent]
    exact ⟨Nat.zero_le 1, List.forall_mem_nil _⟩
  cases comes with
  | rejected | awaiting | abandoned => exact ⟨False.elim, fun _ => none rfl⟩
  | @failed machineId operation audit accepted =>
      refine ⟨False.elim, fun _ => ⟨Option.length_toList_le, ?_⟩⟩
      intro record member
      obtain ⟨operation, -, rfl⟩ := Option.map_eq_some_iff.mp (Option.mem_toList.mp member)
      rfl
  | @relaying machineId operation reply audit relay accepted reached =>
      obtain ⟨machineId', operation', reply', replied, same⟩ := answered
      obtain ⟨status, openaiModel, -⟩ := mocked.reply reply' replied
      have metered := mocked.metered
      rw [Arrival.metered, accepted] at metered
      obtain ⟨operation, rfl⟩ : ∃ own, operation = some own := by
        cases operation with
        | none => cases metered
        | some own => exact ⟨own, rfl⟩
      have cut := pulled_of_reached mocked replied same reached
      have offered := (Relay.observed reached).offered
      cases phase : relay.phase with
      | polling | sending | left | closed | panicked =>
          rw [phase] at offered
          refine ⟨fun served => ?_, fun _ => none offered⟩
          obtain ⟨⟨pumped, recorded⟩, -⟩ := served
          rw [phase] at recorded
          cases recorded
      | recorded pumped =>
          have own : reply.status = 200 ∧ reply.openaiModel = some mockModel :=
            ⟨(congrArg Exchange.status same).trans status,
              (congrArg Exchange.openaiModel same).trans openaiModel⟩
          obtain ⟨whole, part⟩ := record_response mocked.decodes cut arrival.stamp machineId
            operation arrival.reasoningEffort pumped
          have single : relay.offered = [Upstream.record arrival.readers arrival.stamp machineId
              operation arrival.reasoningEffort
              (.response 200 (some mockModel) relay.pulled pumped)] := by
            rw [offered, phase, ← own.1, ← own.2]
            rfl
          constructor
          · intro served
            exact ⟨_, single, (whole served.2).1⟩
          · intro unserved
            have missing := part fun all => unserved ⟨⟨pumped, phase⟩, all⟩
            rw [Lifecycle.offered, single]
            exact ⟨Nat.le_refl 1, List.forall_mem_singleton.mpr missing⟩

/-- The observer of a response of the mock upstream never panics. -/
theorem readable_of_run (mocked : Mocked responseBytes arrival) {audit : AuditQueue}
    {events : List Event}
    (ran : run (Lifecycle.step arrival) (.start arrival audit) events = some lifecycle) :
    lifecycle.isPanicked = false := by
  have comes := invariant (Lifecycle.Comes arrival) Lifecycle.comes_step ran
    (Lifecycle.comes_start arrival audit)
  have answered := answered_of_run ran
  cases comes with
  | rejected | awaiting | abandoned | failed => rfl
  | @relaying machineId operation reply audit relay accepted reached =>
      obtain ⟨machineId', operation', reply', replied, same⟩ := answered
      have cut := pulled_of_reached mocked replied same reached
      cases phase : relay.phase with
      | polling | sending | left | closed | recorded => rw [Lifecycle.isPanicked, phase]; rfl
      | panicked =>
          have ends := (Relay.observed reached).ends
          rw [phase, Relay.EndsAs, Relay.unreadable, Bool.and_eq_true] at ends
          exact absurd ((mocked.decodes.panics _).mp ends.2) (unmarked_of_cut cut)

end Requests

open Transition

/-- **A response of the mock upstream is metered if and only if all of it was pulled**,
in whatever chunks it comes, wherever it is cut off and whatever the caller does; and
what is told of it then is complete. -/
theorem metered_iff {F : Type} {arrival : Arrival F} {responseBytes : UInt64}
    (mocked : Mocked responseBytes arrival) {audit : AuditQueue} {events : List Event}
    {final : Lifecycle F}
    (ran : run (Lifecycle.step arrival) (.start arrival audit) events = some final)
    (ended : final.isOver = true) (attended : final.isAbandoned = false) :
    ∃ record, final.offered = [record] ∧ (record.usage.isSome ↔ IsServed responseBytes final) ∧
      (record.usage.isSome → Tells record) := by
  have comes := invariant (Lifecycle.Comes arrival) Lifecycle.comes_step ran
    (Lifecycle.comes_start arrival audit)
  obtain ⟨served, unserved⟩ := offered_of_run mocked ran
  by_cases all : IsServed responseBytes final
  · obtain ⟨record, offered, tells⟩ := served all
    exact ⟨record, offered, iff_of_true (by rw [tells.usage]; rfl) all, fun _ => tells⟩
  · obtain ⟨upstream, offered⟩ := Lifecycle.offered_of_isOver comes ended attended
      (readable_of_run mocked ran)
    obtain ⟨request, metered⟩ := Option.isSome_iff_exists.mp mocked.metered
    rw [metered, Option.map_some, Option.toList_some] at offered
    have missing := (unserved all).2 _ (offered ▸ List.mem_singleton_self _)
    refine ⟨_, offered, ?_, ?_⟩
    · rw [missing]
      exact iff_of_false Bool.false_ne_true all
    · rw [missing]
      exact fun some => (Bool.false_ne_true some).elim

/-- A request that the mock upstream responds to with a single chunk. -/
def mockRequest : Arrival Empty :=
  { responses with
    readers := decodedReaders
    reply := some ⟨200, some mockModel, [mockBody 0], .clean⟩ }

/-- The request is one that the mock upstream responds to. -/
theorem mocked_mockRequest : Mocked 0 mockRequest where
  metered := by
    have same : mockRequest.metered = responses.metered := rfl
    rw [same, metered_responses, Option.isSome_some]
  decodes := decodedFraming_decodedReaders
  reply := by
    intro reply replied
    cases replied
    exact ⟨rfl, rfl, List.flatten_singleton ▸ List.prefix_refl _⟩

theorem start_mockRequest (audit : AuditQueue) : Lifecycle.start mockRequest audit =
    .awaiting "laptop" (some .response) audit := by
  have same : mockRequest.accepted = responses.accepted := rfl
  rw [Lifecycle.start, same, accepted_responses]

/-- Its body starts with no byte order mark. -/
theorem readable_mockBody : startsMarked (mockBody 0) = false := by
  apply Bool.eq_false_of_not_eq_true
  intro marked
  exact unmarked_of_cut (List.prefix_refl _) (List.isPrefixOf_iff_prefix.mp marked)

/-- The request can be served. -/
theorem exists_run_mockRequest (audit : AuditQueue) :
    ∃ final, run (Lifecycle.step mockRequest) (.start mockRequest audit)
        (relaying ++ [.relay .record]) = some final ∧
      final.isOver = true ∧ final.isAbandoned = false ∧ IsServed 0 final := by
  have before : ∃ exchange relay, run (Lifecycle.step mockRequest) (.start mockRequest audit)
      relaying = some (.relaying exchange relay) ∧ relay.pulled = [mockBody 0] ∧
      relay.phase = .closed .ended ∧ relay.panics exchange = startsMarked (mockBody 0) := by
    rw [start_mockRequest]
    exact ⟨_, _, rfl, rfl, rfl, rfl⟩
  obtain ⟨exchange, relay, ran, pulled, closed, panics⟩ := before
  have taken : Relay.step exchange relay .record = some (relay.record exchange .ended) := by
    simp only [Relay.step, closed, panics, readable_mockBody, Bool.false_eq_true, if_false]
  refine ⟨.relaying exchange (relay.record exchange .ended), run_concat_eq_some.mpr ⟨_, ran, ?_⟩,
    rfl, rfl, ⟨.ended, rfl⟩, ?_⟩
  · rw [Lifecycle.step, taken, Option.map_some]
  · change relay.pulled.flatten = _
    rw [pulled, List.flatten_singleton]

/-- A body that is relayed whole: the record tells the counts and the model of the mock
upstream. -/
theorem metered_iff_mockRequest :
    ∃ final record, run (Lifecycle.step mockRequest) (.start mockRequest ⟨.empty, true⟩)
        (relaying ++ [.relay .record]) = some final ∧
      final.offered = [record] ∧ Tells record := by
  obtain ⟨final, ran, ended, attended, served⟩ := exists_run_mockRequest ⟨.empty, true⟩
  obtain ⟨record, offered, metered, tells⟩ := metered_iff mocked_mockRequest ran ended attended
  exact ⟨final, record, ran, offered, tells (metered.mpr served)⟩

/-- **A body is as long as was asked for**, in pieces of which each has 512 octets of
padding at most. -/
theorem mock_sized (responseBytes : UInt64) :
    responseBytes.toNat ≤ (mockBody responseBytes).length ∧
      (mockChunks responseBytes).length =
        (responseBytes.toNat - (utf8 terminal).length + 511) / 512 + 1 := by
  rw [mockBody, mockChunks]
  generalize (utf8 terminal) = last
  have long := le_length_padding 0 (responseBytes.toNat - last.length)
  constructor
  · rw [List.flatten_append, List.flatten_singleton, List.length_append]
    omega
  · rw [List.length_append, List.length_map, length_padding, List.length_singleton]

end Debitmetre.Smoke
