import Debitmetre.Wire.Ascii

/-!
# Event streams

The framing of server-sent events.  A line ends at a line feed, a carriage
return or both; a `data` field adds its value to the event that is being read; a
blank line dispatches the event, unless no data was read for it.  A line or an
event that the text does not finish is discarded, and so is a byte order mark
the text starts with.
-/

namespace Wire.Sse

/-- How far an event stream has been read. -/
structure Reader where
  line : List Char
  data : List Char
  afterCr : Bool
  deriving DecidableEq, Repr

/-- Nothing has been read of the next event. -/
def Reader.start : Reader := ⟨[], [], false⟩

/-- The name of the field that holds an event's data. -/
def dataField : List Char := ['d', 'a', 't', 'a']

/-- The value of a field: what follows the colon and at most one space. -/
def fieldValue (line : List Char) : List Char :=
  match line.dropWhile (· ≠ ':') with
  | _ :: ' ' :: value => value
  | _ :: value => value
  | [] => []

/-- The data buffer after a line that is not blank.  A line that starts with a
colon is a comment, whose field name is empty. -/
def addLine (data line : List Char) : List Char :=
  if line.takeWhile (· ≠ ':') = dataField then data ++ fieldValue line ++ ['\n'] else data

/-- The end of a line, and the event it dispatches. -/
def Reader.endLine (reader : Reader) (afterCr : Bool) : Reader × List (List Char) :=
  if reader.line = [] then
    (⟨[], [], afterCr⟩, if reader.data = [] then [] else [reader.data.dropLast])
  else (⟨[], addLine reader.data reader.line, afterCr⟩, [])

/-- One character of an event stream. -/
def Reader.step (reader : Reader) (c : Char) : Reader × List (List Char) :=
  -- The second half of a carriage return and line feed.
  if c = '\n' ∧ reader.afterCr = true then ({ reader with afterCr := false }, [])
  else if c = '\n' then reader.endLine false
  else if c = '\r' then reader.endLine true
  else ({ reader with line := reader.line ++ [c], afterCr := false }, [])

/-- A piece of an event stream, and the data of the events dispatched in it. -/
def Reader.run (reader : Reader) : List Char → Reader × List (List Char)
  | [] => (reader, [])
  | c :: text =>
      (((reader.step c).1.run text).1, (reader.step c).2 ++ ((reader.step c).1.run text).2)

def stripBom : List Char → List Char
  | '\uFEFF' :: text => text
  | text => text

/-- The data of the events of a text. -/
def events (text : String) : List String :=
  (Reader.start.run (stripBom text.toList)).2.map String.ofList

/-- The data of the events of a text that follows a dispatched event. -/
def laterEvents (text : String) : List String :=
  (Reader.start.run text.toList).2.map String.ofList

/-- Nothing has been read of the next line or the next event. -/
def Reader.Between (reader : Reader) : Prop := reader.line = [] ∧ reader.data = []

instance (reader : Reader) : Decidable reader.Between := inferInstanceAs (Decidable (_ ∧ _))

/-- A text that ends between two events. -/
def EndsBetween (text : String) : Prop := (Reader.start.run (stripBom text.toList)).1.Between

instance (text : String) : Decidable (EndsBetween text) :=
  inferInstanceAs (Decidable (Reader.Between _))

/-- How the line of a `data` field starts. -/
def dataHeader : List Char := dataField ++ [':', ' ']

/-- The `data` fields of a text, one for each of its lines. -/
def dataLines (text : List Char) : List Char :=
  dataHeader ++ text.flatMap fun c => if c = '\n' then '\n' :: dataHeader else [c]

/-- An event whose data is a text. -/
def event (text : String) : String := String.ofList (dataLines text.toList ++ ['\n', '\n'])

theorem Reader.run_append (reader : Reader) (first second : List Char) :
    reader.run (first ++ second) =
      (((reader.run first).1.run second).1,
        (reader.run first).2 ++ ((reader.run first).1.run second).2) := by
  induction first generalizing reader with
  | nil => rfl
  | cons c first ih => simp only [List.cons_append, Reader.run, ih, List.append_assoc]

/-- A character of a line. -/
theorem Reader.step_ordinary (reader : Reader) {c : Char} (notLf : c ≠ '\n') (notCr : c ≠ '\r') :
    reader.step c = (⟨reader.line ++ [c], reader.data, false⟩, []) := by
  simp only [Reader.step, notLf, notCr, false_and, ↓reduceIte]

/-- The start of a `data` field where a line starts. -/
theorem Reader.run_dataHeader (data : List Char) (afterCr : Bool) :
    (⟨[], data, afterCr⟩ : Reader).run dataHeader = (⟨dataHeader, data, false⟩, []) := by
  cases afterCr <;> rfl

/-- The end of a `data` field. -/
theorem Reader.step_dataLine (data value : List Char) :
    (⟨dataHeader ++ value, data, false⟩ : Reader).step '\n' =
      (⟨[], data ++ value ++ ['\n'], false⟩, []) := rfl

/-- The rest of an event, read inside a `data` field. -/
theorem Reader.run_dataLines {text : List Char} (noCr : '\r' ∉ text) :
    ∀ data value : List Char,
      (⟨dataHeader ++ value, data, false⟩ : Reader).run
          ((text.flatMap fun c => if c = '\n' then '\n' :: dataHeader else [c]) ++ ['\n', '\n']) =
        (.start, [data ++ value ++ text]) := by
  induction text with
  | nil =>
      intro data value
      have buffer : data ++ value ++ ['\n'] ≠ [] :=
        List.append_ne_nil_of_right_ne_nil _ (List.cons_ne_nil _ _)
      simp only [List.flatMap_nil, List.nil_append, Reader.run, Reader.step_dataLine,
        List.append_nil]
      simp only [Reader.step, Reader.endLine, Bool.false_eq_true, and_false, ↓reduceIte, buffer,
        List.dropLast_concat, Reader.start]
  | cons c text ih =>
      intro data value
      rw [List.mem_cons, not_or] at noCr
      rw [List.flatMap_cons]
      by_cases newline : c = '\n'
      · subst newline
        rw [if_pos rfl, List.cons_append, List.cons_append, Reader.run, Reader.step_dataLine,
          List.append_assoc dataHeader, Reader.run_append, Reader.run_dataHeader]
        have rest := ih noCr.2 (data ++ value ++ ['\n']) []
        rw [List.append_nil, List.append_nil] at rest
        rw [rest]
        simp only [List.nil_append, List.append_assoc, List.singleton_append]
      · rw [if_neg newline, List.singleton_append, List.cons_append, Reader.run,
          Reader.step_ordinary _ newline (Ne.symm noCr.1)]
        have rest := ih noCr.2 data (value ++ [c])
        rw [← List.append_assoc] at rest
        rw [rest]
        simp only [List.nil_append, List.append_assoc, List.singleton_append]

/-- **An event is read back** between two events, and leaves the reader between
events. -/
theorem Reader.run_event {reader : Reader} (between : reader.Between) {text : String}
    (noCr : '\r' ∉ text.toList) :
    reader.run (event text).toList = (.start, [text.toList]) := by
  obtain ⟨line, data, afterCr⟩ := reader
  obtain ⟨started, empty⟩ := between
  change line = [] at started
  change data = [] at empty
  subst started empty
  have rest := Reader.run_dataLines noCr [] []
  rw [List.append_nil, List.nil_append, List.nil_append] at rest
  rw [event, String.toList_ofList, dataLines, List.append_assoc, Reader.run_append,
    Reader.run_dataHeader, rest]
  rfl

/-- A mark is stripped from where the stream starts, and nowhere else. -/
theorem stripBom_append (before : List Char) {c : Char} (ordinary : c ≠ '\uFEFF')
    (rest : List Char) : stripBom (before ++ c :: rest) = stripBom before ++ c :: rest := by
  cases before with
  | nil =>
      unfold stripBom
      split
      · rename_i same
        exact absurd (List.cons.inj same).1 ordinary
      · rfl
  | cons first before =>
      rw [List.cons_append]
      unfold stripBom
      split
      · rename_i same
        rw [(List.cons.inj same).1]
        exact ((List.cons.inj same).2).symm
      · rename_i unmarked
        split
        · rename_i same
          exact absurd (congrArg (· ++ c :: rest) same) (unmarked _)
        · rfl

/-- **The events around an event.** -/
theorem events_append_event {before : String} (between : EndsBetween before) {text : String}
    (noCr : '\r' ∉ text.toList) (after : String) :
    events (before ++ event text ++ after) = events before ++ text :: laterEvents after := by
  have starts : (event text).toList ++ after.toList = 'd' ::
      ((event text).toList.tail ++ after.toList) := by
    rw [event, String.toList_ofList]
    rfl
  rw [events, String.toList_append, String.toList_append, List.append_assoc, starts,
    stripBom_append _ (by decide), ← starts, Reader.run_append, Reader.run_append,
    Reader.run_event between noCr, List.map_append, List.singleton_append, List.map_cons,
    String.ofList_toList]
  rfl

end Wire.Sse
