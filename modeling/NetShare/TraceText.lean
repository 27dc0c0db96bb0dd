import NetShare.Reasoning.JsonText
import NetShare.TraceFile

/-!
# The text of a trace

What a flush prints for its events, and what stands in a trace file when it is closed.  The lines
are put together in a buffer of 1024 characters that their length is not compared with; events with
short plain texts fit, and of these the file is a JSON text that holds them in their order.
-/

namespace NetShare

open Reasoning JsonText

/-! ## 1. Events and their lines -/

inductive mtr_arg_type where
  | MTR_ARG_TYPE_NONE
  | MTR_ARG_TYPE_INT
  | MTR_ARG_TYPE_STRING_CONST
  | MTR_ARG_TYPE_STRING_COPY
deriving DecidableEq

/-- `raw_event_t`.  A string is the characters before its NUL, and the members of the union are kept
apart; `dur` is what `(int)raw->a_double` gives. -/
structure RawEvent where
  name : List Char
  cat : List Char
  id : UInt64
  ts : Int64
  pid : UInt32
  tid : UInt32
  ph : Char
  arg_type : mtr_arg_type
  arg_name : List Char
  a_str : List Char
  a_int : Int32
  dur : Int32

/-- What `snprintf` leaves of a text in a buffer of this size, before the NUL. -/
def snprintf (size : Nat) (text : List Char) : List Char := text.take (size - 1)

/-- `%08x` -/
def hexText (n : UInt32) : List Char :=
  [7, 6, 5, 4, 3, 2, 1, 0].map fun k => Nat.digitChar (n.toNat / 16 ^ k % 16)

namespace RawEvent

/-- A copied string is printed up to 700 characters. -/
def argString (raw : RawEvent) : List Char :=
  if raw.arg_type = .MTR_ARG_TYPE_STRING_COPY then raw.a_str.take 700 else raw.a_str

def argText (raw : RawEvent) : List Char :=
  match raw.arg_type with
  | .MTR_ARG_TYPE_INT =>
    ["\"".toList, raw.arg_name, "\":".toList, intText raw.a_int.toInt].flatten
  | .MTR_ARG_TYPE_STRING_CONST | .MTR_ARG_TYPE_STRING_COPY =>
    ["\"".toList, raw.arg_name, "\":\"".toList, raw.argString, "\"".toList].flatten
  | .MTR_ARG_TYPE_NONE => []

/-- `id_buf` after the event; with an `id` and another kind of event it keeps what it held. -/
def idText (raw : RawEvent) (id_buf : List Char) : List Char :=
  if raw.id = 0 then []
  else match raw.ph with
    | 'S' | 'T' | 'F' =>
      snprintf 256 [",\"id\":\"0x".toList, hexText raw.id.toUInt32, "\"".toList].flatten
    | 'X' => snprintf 256 [",\"dur\":".toList, intText raw.dur.toInt].flatten
    | _ => id_buf

/-- The category with the slashes of other systems, and at most 255 characters of it. -/
def category (raw : RawEvent) : List Char :=
  (raw.cat.take 255).map fun c => if c = '\\' then '/' else c

/-- An event as it is printed, before it is cut to the size of `linebuf`. -/
def eventText (raw : RawEvent) (time_offset : Int64) (id_buf : List Char) : List Char :=
  ["\x7b\"cat\":\"".toList, raw.category, "\",\"pid\":".toList, intText raw.pid.toInt32.toInt,
    ",\"tid\":".toList, intText raw.tid.toInt32.toInt, ",\"ts\":".toList,
    intText (raw.ts - time_offset).toInt, ",\"ph\":\"".toList, [raw.ph], "\",\"name\":\"".toList,
    raw.name, "\",\"args\":\x7b".toList, snprintf 1024 raw.argText, "\x7d".toList,
    raw.idText id_buf, "\x7d".toList].flatten

def line (raw : RawEvent) (first_line : Bool) (time_offset : Int64) (id_buf : List Char) :
    List Char :=
  (if first_line then [] else ",\n".toList) ++ raw.eventText time_offset id_buf

end RawEvent

/-- What `fwrite` takes out of `linebuf`, where it is told the length of the whole line: `none` if
it reads past the end. -/
def fwriteLine (text : List Char) : Option (List Char) :=
  if text.length < 1024 then some text
  else if text.length = 1024 then some (snprintf 1024 text ++ [Char.ofNat 0])
  else none

/-! ## 2. Events that are printed as they are -/

/-- ASCII that stands for itself in a JSON string. -/
def isText (c : Char) : Bool := isPlain c && c.toNat < 128

/-- The texts need no escapes, an event with an `id` is of a kind that prints it, and what varies in
length is short. -/
structure RawEvent.Proper (raw : RawEvent) : Prop where
  cat : raw.cat.all (fun c => c == '\\' || isText c) = true
  name : raw.name.all isText = true
  ph : isText raw.ph = true
  arg_name : raw.arg_type ≠ .MTR_ARG_TYPE_NONE → raw.arg_name.all isText = true
  a_str : raw.arg_type ≠ .MTR_ARG_TYPE_NONE → raw.arg_type ≠ .MTR_ARG_TYPE_INT →
    raw.argString.all isText = true
  id : raw.id ≠ 0 → raw.ph = 'S' ∨ raw.ph = 'T' ∨ raw.ph = 'F' ∨ raw.ph = 'X'
  short : raw.category.length + raw.name.length + raw.argText.length ≤ 902

instance (raw : RawEvent) : Decidable raw.Proper :=
  decidable_of_iff
    (raw.cat.all (fun c => c == '\\' || isText c) = true ∧ raw.name.all isText = true ∧
      isText raw.ph = true ∧
      (raw.arg_type ≠ .MTR_ARG_TYPE_NONE → raw.arg_name.all isText = true) ∧
      (raw.arg_type ≠ .MTR_ARG_TYPE_NONE → raw.arg_type ≠ .MTR_ARG_TYPE_INT →
        raw.argString.all isText = true) ∧
      (raw.id ≠ 0 → raw.ph = 'S' ∨ raw.ph = 'T' ∨ raw.ph = 'F' ∨ raw.ph = 'X') ∧
      raw.category.length + raw.name.length + raw.argText.length ≤ 902)
    ⟨fun ⟨cat, name, ph, arg_name, a_str, id, short⟩ =>
        ⟨cat, name, ph, arg_name, a_str, id, short⟩,
      fun ⟨cat, name, ph, arg_name, a_str, id, short⟩ =>
        ⟨cat, name, ph, arg_name, a_str, id, short⟩⟩

namespace RawEvent

/-- The argument as a member of `args`. -/
def args (raw : RawEvent) : List (List Char × JsonValue) :=
  match raw.arg_type with
  | .MTR_ARG_TYPE_INT => [(raw.arg_name, .int raw.a_int.toInt)]
  | .MTR_ARG_TYPE_STRING_CONST | .MTR_ARG_TYPE_STRING_COPY =>
    [(raw.arg_name, .string raw.argString)]
  | .MTR_ARG_TYPE_NONE => []

/-- The member that tells which event it belongs to, or how long it took. -/
def idMember (raw : RawEvent) : List (List Char × JsonValue) :=
  if raw.id = 0 then []
  else if raw.ph = 'X' then [("dur".toList, .int raw.dur.toInt)]
  else [("id".toList, .string ("0x".toList ++ hexText raw.id.toUInt32))]

/-- The event as a reader of the trace sees it. -/
def json (raw : RawEvent) (time_offset : Int64) : JsonValue :=
  .object <| [("cat".toList, .string raw.category), ("pid".toList, .int raw.pid.toInt32.toInt),
    ("tid".toList, .int raw.tid.toInt32.toInt),
    ("ts".toList, .int (raw.ts - time_offset).toInt), ("ph".toList, .string [raw.ph]),
    ("name".toList, .string raw.name), ("args".toList, .object raw.args)] ++ raw.idMember

/-- The text of that member. -/
def idPlain (raw : RawEvent) : List Char :=
  ",\"id\":\"0x".toList ++ (hexText raw.id.toUInt32 ++ "\"".toList)

def durPlain (raw : RawEvent) : List Char := ",\"dur\":".toList ++ intText raw.dur.toInt

end RawEvent

/-- A trace with these events. -/
def traceJson (time_offset : Int64) (events : List RawEvent) : JsonValue :=
  .object [("traceEvents".toList, .array (events.map fun raw => raw.json time_offset))]

namespace RawEvent.Proper

variable {raw : RawEvent}

theorem isPlain_of_isText {s : List Char} (hs : s.all isText = true) : s.all isPlain = true := by
  rw [List.all_eq_true] at hs ⊢
  exact fun c hc => (Bool.and_eq_true_iff.mp (hs c hc)).1

theorem category_isPlain (h : raw.Proper) : raw.category.all isPlain = true := by
  rw [List.all_eq_true]
  intro c hc
  obtain ⟨d, hd, rfl⟩ := List.mem_map.mp hc
  have hcat := List.all_eq_true.mp h.cat d (List.mem_of_mem_take hd)
  split
  next => rfl
  next hne =>
    rw [beq_eq_false_iff_ne.mpr hne, Bool.false_or] at hcat
    exact (Bool.and_eq_true_iff.mp hcat).1

theorem hexText_isPlain (n : UInt32) : (hexText n).all isPlain = true := by
  have hdigit : ∀ d < 16, isPlain (Nat.digitChar d) = true := by decide
  rw [List.all_eq_true]
  intro c hc
  obtain ⟨k, -, rfl⟩ := List.mem_map.mp hc
  exact hdigit _ (Nat.mod_lt _ (by decide))

theorem length_int32 (i : Int32) : (intText i.toInt).length ≤ 11 :=
  length_intText_le (by decide) (lt_of_lt_of_le i.toInt_lt (by decide))
    (lt_of_lt_of_le (by decide) i.le_toInt)

theorem length_int64 (i : Int64) : (intText i.toInt).length ≤ 20 :=
  length_intText_le (by decide) (lt_of_lt_of_le i.toInt_lt (by decide))
    (lt_of_lt_of_le (by decide) i.le_toInt)

-- `arg_buf` is long enough.
theorem arg_fits (h : raw.Proper) : snprintf 1024 raw.argText = raw.argText :=
  List.take_of_length_le ((Nat.le_add_left ..).trans (h.short.trans (by decide)))

theorem length_idPlain (raw : RawEvent) : raw.idPlain.length = 18 := by
  unfold idPlain hexText
  simp only [String.reduceToList, List.length_append, List.length_map, List.length_cons,
    List.length_nil]

theorem length_durPlain (raw : RawEvent) : raw.durPlain.length ≤ 18 := by
  have hdur := length_int32 raw.dur
  unfold durPlain
  simp only [String.reduceToList, List.length_append, List.length_cons, List.length_nil]
  omega

-- `id_buf` is long enough.
theorem id_fits (raw : RawEvent) :
    snprintf 256 [",\"id\":\"0x".toList, hexText raw.id.toUInt32, "\"".toList].flatten =
      raw.idPlain := by
  have hflat : [",\"id\":\"0x".toList, hexText raw.id.toUInt32, "\"".toList].flatten =
      raw.idPlain := by
    unfold idPlain
    simp only [List.flatten_cons, List.flatten_nil, List.append_nil]
  rw [hflat]
  exact List.take_of_length_le (by rw [length_idPlain]; decide)

theorem dur_fits (raw : RawEvent) :
    snprintf 256 [",\"dur\":".toList, intText raw.dur.toInt].flatten = raw.durPlain := by
  have hflat : [",\"dur\":".toList, intText raw.dur.toInt].flatten = raw.durPlain := by
    unfold durPlain
    simp only [List.flatten_cons, List.flatten_nil, List.append_nil]
  rw [hflat]
  exact List.take_of_length_le ((length_durPlain raw).trans (by decide))

/-- What is printed of the `id`, whatever `id_buf` held. -/
theorem idText_eq (h : raw.Proper) (id_buf : List Char) :
    raw.idText id_buf =
      if raw.id = 0 then [] else if raw.ph = 'X' then raw.durPlain else raw.idPlain := by
  unfold idText
  split
  next => rfl
  next hne =>
    rcases h.id hne with hph | hph | hph | hph <;> rw [hph]
    · rw [if_neg (by decide)]
      exact id_fits raw
    · rw [if_neg (by decide)]
      exact id_fits raw
    · rw [if_neg (by decide)]
      exact id_fits raw
    · rw [if_pos rfl]
      exact dur_fits raw

theorem length_idText (h : raw.Proper) (id_buf : List Char) :
    (raw.idText id_buf).length ≤ 18 := by
  rw [h.idText_eq]
  split
  · exact Nat.zero_le _
  · split
    · exact length_durPlain raw
    · exact Nat.le_of_eq (length_idPlain raw)

theorem denotes_args (h : raw.Proper) :
    Denotes ('{' :: (raw.argText ++ ['}'])) (.object raw.args) := by
  -- a string, constant or copied
  have hstring (hnone : raw.arg_type ≠ .MTR_ARG_TYPE_NONE)
      (hint : raw.arg_type ≠ .MTR_ARG_TYPE_INT) :
      Denotes ('{' :: (["\"".toList, raw.arg_name, "\":\"".toList, raw.argString,
        "\"".toList].flatten ++ ['}'])) (.object [(raw.arg_name, .string raw.argString)]) := by
    have hmember := DenotesMembers.string_last _ (isPlain_of_isText (h.arg_name hnone))
      (isPlain_of_isText (h.a_str hnone hint))
    simp only [String.reduceToList, List.flatten_cons, List.flatten_nil, List.append_nil,
      List.append_assoc, List.cons_append, List.nil_append]
    exact .object hmember
  unfold argText args
  cases harg : raw.arg_type with
  | MTR_ARG_TYPE_NONE => exact @Denotes.emptyObject [] rfl
  | MTR_ARG_TYPE_INT =>
    have hname := isPlain_of_isText (h.arg_name (by rw [harg]; decide))
    have hmember := DenotesMembers.compact_last _ hname (.int raw.a_int.toInt)
    simp only [String.reduceToList, List.flatten_cons, List.flatten_nil, List.append_nil,
      List.append_assoc, List.cons_append, List.nil_append]
    exact .object hmember
  | MTR_ARG_TYPE_STRING_CONST => exact hstring (by rw [harg]; decide) (by rw [harg]; decide)
  | MTR_ARG_TYPE_STRING_COPY => exact hstring (by rw [harg]; decide) (by rw [harg]; decide)

-- The last members: the argument, and the `id` if there is one.
theorem denotes_tail (h : raw.Proper) (id_buf : List Char) :
    DenotesMembers ("\"args\":\x7b".toList ++ (raw.argText ++ ("\x7d".toList ++
      (raw.idText id_buf ++ "\x7d".toList))))
      (("args".toList, .object raw.args) :: raw.idMember) := by
  have hargs := h.denotes_args
  rw [h.idText_eq, idMember]
  split
  next =>
    have hlast := DenotesMembers.compact_last "args".toList (by decide) hargs
    simp only [String.reduceToList, List.append_assoc, List.cons_append, List.nil_append]
      at hlast ⊢
    exact hlast
  next =>
    split
    next =>
      have hdur := DenotesMembers.compact_last "dur".toList (by decide) (.int raw.dur.toInt)
      have hcons := DenotesMembers.compact_cons "args".toList (by decide) hargs hdur
      unfold durPlain
      simp only [String.reduceToList, List.append_assoc, List.cons_append, List.nil_append]
        at hcons ⊢
      exact hcons
    next =>
      have hhex : ("0x".toList ++ hexText raw.id.toUInt32).all isPlain = true := by
        rw [List.all_append, hexText_isPlain, Bool.and_true]
        decide
      have hid := DenotesMembers.string_last "id".toList (by decide) hhex
      have hcons := DenotesMembers.compact_cons "args".toList (by decide) hargs hid
      unfold idPlain
      simp only [String.reduceToList, List.append_assoc, List.cons_append, List.nil_append]
        at hcons ⊢
      exact hcons

/-- **An event is printed as the object that it is.** -/
theorem denotes_eventText (h : raw.Proper) (time_offset : Int64) (id_buf : List Char) :
    Denotes (raw.eventText time_offset id_buf) (raw.json time_offset) := by
  have hph : [raw.ph].all isPlain = true := isPlain_of_isText (by
    rw [List.all_cons, h.ph]
    rfl)
  have hname := DenotesMembers.string_cons "name".toList (by decide)
    (isPlain_of_isText h.name) (h.denotes_tail id_buf)
  have hts := DenotesMembers.compact_cons "ts".toList (by decide)
    (.int (raw.ts - time_offset).toInt)
    (DenotesMembers.string_cons "ph".toList (by decide) hph hname)
  have htid := DenotesMembers.compact_cons "tid".toList (by decide)
    (.int raw.tid.toInt32.toInt) hts
  have hpid := DenotesMembers.compact_cons "pid".toList (by decide)
    (.int raw.pid.toInt32.toInt) htid
  have hcat := DenotesMembers.string_cons "cat".toList (by decide) h.category_isPlain hpid
  unfold eventText json
  rw [h.arg_fits]
  simp only [String.reduceToList, List.flatten_cons, List.flatten_nil, List.append_nil,
    List.cons_append, List.nil_append] at hcat ⊢
  exact .object hcat

-- The fixed parts of a line, and what varies.
theorem line_fits {cat name arg pid tid ts id : Nat} (hshort : cat + name + arg ≤ 902)
    (hpid : pid ≤ 11) (htid : tid ≤ 11) (hts : ts ≤ 20) (hid : id ≤ 18) :
    8 + (cat + (8 + (pid + (7 + (tid + (6 + (ts + (7 + (1 + (10 + (name + (10 + (arg + (1 + (id +
      1))))))))))))))) ≤ 1021 := by
  simp only [← Nat.add_assoc]
  omega

theorem length_eventText (h : raw.Proper) (time_offset : Int64) (id_buf : List Char) :
    (raw.eventText time_offset id_buf).length ≤ 1021 := by
  have hshort := h.short
  have hpid := length_int32 raw.pid.toInt32
  have htid := length_int32 raw.tid.toInt32
  have hts := length_int64 (raw.ts - time_offset)
  have hid := h.length_idText id_buf
  unfold eventText
  rw [h.arg_fits]
  simp only [String.reduceToList, List.flatten_cons, List.flatten_nil, List.length_append,
    List.length_cons, List.length_nil, Nat.zero_add, Nat.reduceAdd, Nat.add_zero]
  exact line_fits hshort hpid htid hts hid

theorem line_eq (h : raw.Proper) (first_line : Bool) (time_offset : Int64) (id_buf : List Char) :
    raw.line first_line time_offset id_buf = raw.line first_line time_offset [] := by
  unfold line eventText
  rw [h.idText_eq id_buf, h.idText_eq []]

/-- The line fits into `linebuf`. -/
theorem fwriteLine_line (h : raw.Proper) (first_line : Bool) (time_offset : Int64)
    (id_buf : List Char) :
    fwriteLine (raw.line first_line time_offset id_buf) =
      some (raw.line first_line time_offset []) := by
  rw [h.line_eq]
  refine if_pos ?_
  have hlength := h.length_eventText time_offset []
  unfold line
  rw [List.length_append]
  generalize (raw.eventText time_offset []).length = text at hlength
  cases first_line
  · show 2 + text < 1024
    omega
  · show 0 + text < 1024
    omega

end RawEvent.Proper

/-! ## 3. Files -/

def header : List Char := "\x7b\"traceEvents\":[\n".toList

def footer : List Char := "\n]\x7d\n".toList

/-- The lines of some events, the first of which may be the first of the file. -/
def linesText (time_offset : Int64) : Bool → List RawEvent → List Char
  | _, [] => []
  | first_line, raw :: events =>
    raw.line first_line time_offset [] ++ linesText time_offset false events

theorem linesText_concat (time_offset : Int64) (first_line : Bool) (events : List RawEvent)
    (raw : RawEvent) :
    linesText time_offset first_line (events ++ [raw]) =
      linesText time_offset first_line events ++
        raw.line (first_line && events.isEmpty) time_offset [] := by
  induction events generalizing first_line with
  | nil =>
    rw [List.nil_append, linesText, linesText, linesText, List.append_nil, List.nil_append,
      List.isEmpty_nil, Bool.and_true]
  | cons event events ih =>
    rw [List.cons_append, linesText, linesText, ih, List.append_assoc, Bool.false_and,
      List.isEmpty_cons, Bool.and_false]

theorem denotesElements_lines (time_offset : Int64) {raw : RawEvent} {events : List RawEvent}
    (hraw : raw.Proper) (hevents : ∀ event ∈ events, event.Proper) :
    DenotesElements
      ('\n' :: (raw.eventText time_offset [] ++
        (linesText time_offset false events ++ ['\n', ']'])))
      ((raw :: events).map fun raw => raw.json time_offset) := by
  have htext := hraw.denotes_eventText time_offset []
  induction events generalizing raw with
  | nil => exact @DenotesElements.last ['\n'] _ ['\n'] _ rfl htext rfl
  | cons event events ih =>
    have hevent := hevents event List.mem_cons_self
    have hrest := ih hevent (fun event he => hevents event (List.mem_cons_of_mem _ he))
      (hevent.denotes_eventText time_offset [])
    have hcons := @DenotesElements.cons ['\n'] _ [] _ _ _ rfl htext rfl hrest
    simp only [linesText, RawEvent.line, Bool.false_eq_true, if_false, String.reduceToList,
      List.cons_append, List.nil_append, List.append_assoc] at hcons ⊢
    exact hcons

/-- **A file of proper events reads as the trace of these events.** -/
theorem readJson_lines (time_offset : Int64) {events : List RawEvent}
    (hevents : ∀ event ∈ events, event.Proper) :
    readJson (header ++ (linesText time_offset true events ++ footer)) =
      some (traceJson time_offset events) := by
  have harray : Denotes ('[' :: '\n' :: (linesText time_offset true events ++ ['\n', ']']))
      (.array (events.map fun raw => raw.json time_offset)) := by
    cases events with
    | nil => exact @Denotes.emptyArray ['\n', '\n'] rfl
    | cons event events =>
      have hrest := denotesElements_lines time_offset (hevents event List.mem_cons_self)
        fun event he => hevents event (List.mem_cons_of_mem _ he)
      simp only [linesText, RawEvent.line, if_true, List.nil_append, List.append_assoc]
      exact .array hrest
  have hmember := DenotesMembers.compact_last "traceEvents".toList (by decide) harray
  have hread := (Denotes.object hmember).readJson (@List.all_nil _ isSpace)
    (show ['\n'].all isSpace = true by decide)
  unfold header footer traceJson
  simp only [String.reduceToList, List.append_assoc, List.cons_append, List.nil_append]
    at hread ⊢
  exact hread

/-! ## 4. The tracer with its text -/

/-- The tracer, the variables of the printing, what has been written to `f`, and the texts of the
files that were closed. -/
structure TextTracer (n : Nat) where
  recorded : RecordedTracer RawEvent n := {}
  time_offset : Int64 := 0
  first_line : Bool := true
  id_buf : List Char := []
  text : List Char := []
  texts : List (List Char) := []

/-- A label of the tracer, with the time at which `mtr_init` is called and what a flush finds in
`id_buf`, which it does not initialise. -/
structure TextLabel (n : Nat) where
  label : TraceLabel RawEvent n
  time : Int64 := 0
  id_buf : List Char := []

/-- An event that is recorded is a proper one. -/
def TraceLabel.Records {n : Nat} : TraceLabel RawEvent n → Prop
  | .call _ (.internal_mtr_raw_event raw) => raw.Proper
  | _ => True

namespace TextTracer

variable {n : Nat}

/-- One round of the loop of `mtr_flush_with_state`. -/
def print (s : TextTracer n) (raw : RawEvent) : Option (TextTracer n) :=
  (fwriteLine (raw.line s.first_line s.time_offset s.id_buf)).map fun written =>
    { s with
      first_line := false
      id_buf := raw.idText s.id_buf
      text := s.text ++ written }

/-- What a step does to the text: `none` if it reads what is not there. -/
def write (s : TextTracer n) (a : TextLabel n) : Option (TextTracer n) :=
  match a.label with
  | .call _ .mtr_init =>
    some { s with time_offset := a.time, first_line := true, text := header }
  | .call _ _ => some s
  | .step i =>
    match s.recorded.tracer.pc i with
    | .waiting .. => some { s with id_buf := a.id_buf }
    | .writing k event_count_copy _ =>
      if k < event_count_copy then
        (s.recorded.tracer.blocks (!s.recorded.tracer.event_buffer) k).bind s.print
      else some s
    | .closing => some { s with text := [], texts := s.texts ++ [s.text ++ footer] }
    | _ => some s

def next (s : TextTracer n) (a : TextLabel n) : Option (TextTracer n) :=
  (s.recorded.next a.label).bind fun recorded =>
    (s.write a).map fun t => { t with recorded }

/-- How the driver uses the tracer, and what it records. -/
def Permits (s : TextTracer n) (a : TextLabel n) : Prop :=
  s.recorded.tracer.Quiet a.label ∧ a.label.Records

end TextTracer

def textMachine (n : Nat) : Machine (TextTracer n) (TextLabel n) where
  init s := s = {}
  next := TextTracer.next

/-! ## 5. What the files read as -/

namespace TextTracer

variable {n : Nat} {s : TextTracer n}

/-- The text is that of a file with these slots. -/
def Prints (s : TextTracer n) (file : List (Option RawEvent)) : Prop :=
  ∃ events : List RawEvent, file = events.map some ∧ (∀ raw ∈ events, raw.Proper) ∧
    s.text = header ++ linesText s.time_offset true events ∧ s.first_line = events.isEmpty

/-- The text of a file that was closed with these slots. -/
def PrintedAs (text : List Char) (file : List (Option RawEvent)) : Prop :=
  ∃ (time_offset : Int64) (events : List RawEvent), file = events.map some ∧
    (∀ raw ∈ events, raw.Proper) ∧
    text = header ++ (linesText time_offset true events ++ footer)

structure Printed (s : TextTracer n) : Prop where
  traced : ∃ flusher, s.recorded.Traced flusher
  accepted : ∀ raw ∈ s.recorded.accepted, raw.Proper
  file : ∀ file, s.recorded.tracer.f = some file → s.Prints file
  texts : List.Forall₂ PrintedAs s.texts s.recorded.tracer.closed

theorem Prints.print {file : List (Option RawEvent)} (h : s.Prints file) {raw : RawEvent}
    (hraw : raw.Proper) :
    ∃ t, s.print raw = some t ∧ t.Prints (file ++ [some raw]) ∧ t.texts = s.texts := by
  obtain ⟨events, rfl, hevents, htext, hfirst⟩ := h
  refine ⟨_, congrArg _ (hraw.fwriteLine_line _ _ _), ⟨events ++ [raw], ?_, ?_, ?_, ?_⟩, rfl⟩
  · rw [List.map_append]
    rfl
  · intro event he
    rcases List.mem_append.mp he with he | he
    · exact hevents event he
    · rwa [List.mem_singleton.mp he]
  · rw [linesText_concat, Bool.true_and, ← List.append_assoc, ← htext, ← hfirst]
  · simp

/-- A step that writes nothing. -/
theorem Printed.keep (h : s.Printed) {t : TextTracer n} {tracer : Tracer RawEvent n}
    (htext : t.text = s.text) (hoffset : t.time_offset = s.time_offset)
    (hfirst : t.first_line = s.first_line) (htexts : t.texts = s.texts)
    (hf : tracer.f = s.recorded.tracer.f) (hclosed : tracer.closed = s.recorded.tracer.closed) :
    (∀ file, tracer.f = some file → t.Prints file) ∧
      List.Forall₂ PrintedAs t.texts tracer.closed := by
  refine ⟨fun file hfile => ?_, ?_⟩
  · rw [hf] at hfile
    obtain ⟨events, hfile, hevents, hprints⟩ := h.file file hfile
    rw [← htext, ← hoffset, ← hfirst] at hprints
    exact ⟨events, hfile, hevents, hprints⟩
  · rw [htexts, hclosed]
    exact h.texts

theorem call_file {tracer t : Tracer RawEvent n} {i : Fin n} {c : TraceCall RawEvent}
    (h : tracer.call i c = some t) (hc : c ≠ .mtr_init) :
    t.f = tracer.f ∧ t.closed = tracer.closed := by
  cases c with
  | mtr_init => contradiction
  | mtr_flush =>
    simp only [Tracer.call] at h
    split at h
    next =>
      obtain rfl := Option.some.inj h
      unfold Tracer.flush
      split <;> exact ⟨rfl, rfl⟩
    next => contradiction
  | mtr_shutdown =>
    simp only [Tracer.call] at h
    split at h
    next =>
      obtain rfl := Option.some.inj h
      exact ⟨rfl, rfl⟩
    next => contradiction
  | internal_mtr_raw_event raw =>
    simp only [Tracer.call] at h
    split at h
    next =>
      obtain rfl := Option.some.inj h
      unfold Tracer.reserve
      split <;> exact ⟨rfl, rfl⟩
    next => contradiction

/-- What a call writes: only `mtr_init` writes something, the header of a new file. -/
theorem Printed.call (h : s.Printed) {a : TextLabel n} {i : Fin n} {c : TraceCall RawEvent}
    (ha : a.label = .call i c) {tracer : Tracer RawEvent n}
    (hn : s.recorded.tracer.call i c = some tracer) :
    ∃ t, s.write a = some t ∧ (∀ file, tracer.f = some file → t.Prints file) ∧
      List.Forall₂ PrintedAs t.texts tracer.closed := by
  cases c with
  | mtr_init =>
    obtain rfl := Option.some.inj hn
    refine ⟨{ s with time_offset := a.time, first_line := true, text := header },
      by rw [write, ha], fun file hfile => ?_, h.texts⟩
    obtain rfl := Option.some.inj hfile
    exact ⟨[], rfl, nofun, (List.append_nil _).symm, rfl⟩
  | mtr_flush =>
    obtain ⟨hf, hclosed⟩ := call_file hn nofun
    exact ⟨s, by rw [write, ha], h.keep rfl rfl rfl rfl hf hclosed⟩
  | mtr_shutdown =>
    obtain ⟨hf, hclosed⟩ := call_file hn nofun
    exact ⟨s, by rw [write, ha], h.keep rfl rfl rfl rfl hf hclosed⟩
  | internal_mtr_raw_event raw =>
    obtain ⟨hf, hclosed⟩ := call_file hn nofun
    exact ⟨s, by rw [write, ha], h.keep rfl rfl rfl rfl hf hclosed⟩

-- The event that a flush prints was accepted, and so it is a proper one.
theorem Printed.slot (h : s.Printed) {i : Fin n} {k event_count_copy : Nat} {is_last : Bool}
    (hpc : s.recorded.tracer.pc i = .writing k event_count_copy is_last)
    (hk : k < event_count_copy) :
    ∃ raw, s.recorded.tracer.blocks (!s.recorded.tracer.event_buffer) k = some raw ∧
      raw.Proper := by
  obtain ⟨flusher, htraced⟩ := h.traced
  have hf := htraced.owned.opened (i := i) (by rw [hpc]; rfl)
  obtain ⟨finished, batch, recent, hcontents, haccepted⟩ := htraced.contents hf
  obtain ⟨hlt, hslot⟩ := hcontents.slot hpc hk
  refine ⟨batch[k], hslot, h.accepted _ ?_⟩
  rw [haccepted]
  exact List.mem_append_left _ (List.mem_append_right _ (List.getElem_mem hlt))

/-- What a thread writes when it goes on with its call. -/
theorem Printed.step (h : s.Printed) {a : TextLabel n} {i : Fin n} (ha : a.label = .step i)
    {tracer : Tracer RawEvent n} (hn : s.recorded.tracer.step i = some tracer) :
    ∃ t, s.write a = some t ∧ (∀ file, tracer.f = some file → t.Prints file) ∧
      List.Forall₂ PrintedAs t.texts tracer.closed := by
  unfold Tracer.step at hn
  cases hpc : s.recorded.tracer.pc i with
  | idle =>
    rw [hpc] at hn
    contradiction
  | filling block slot raw =>
    rw [hpc] at hn
    obtain rfl := Option.some.inj hn
    exact ⟨s, by simp only [write, ha, hpc], h.keep rfl rfl rfl rfl rfl rfl⟩
  | filled =>
    rw [hpc] at hn
    obtain rfl := Option.some.inj hn
    exact ⟨s, by simp only [write, ha, hpc], h.keep rfl rfl rfl rfl rfl rfl⟩
  | waiting event_count_copy is_last =>
    rw [hpc] at hn
    obtain rfl := Option.some.inj hn
    refine ⟨{ s with id_buf := a.id_buf }, by simp only [write, ha, hpc], ?_⟩
    split <;> exact h.keep rfl rfl rfl rfl rfl rfl
  | writing k event_count_copy is_last =>
    rw [hpc] at hn
    dsimp only at hn
    split at hn
    next => contradiction
    next hopen =>
      split at hn
      next hk =>
        obtain rfl := Option.some.inj hn
        obtain ⟨raw, hslot, hraw⟩ := h.slot hpc hk
        obtain ⟨file, hfile⟩ := Option.isSome_iff_exists.mp
          (Option.isSome_iff_ne_none.mpr fun hnone => hopen (Option.isNone_iff_eq_none.mpr hnone))
        obtain ⟨t, hprint, hprints, htexts⟩ := (h.file file hfile).print hraw
        refine ⟨t, by simp only [write, ha, hpc, if_pos hk, hslot, Option.bind_some, hprint],
          fun file' hfile' => ?_, htexts ▸ h.texts⟩
        simp only [Tracer.writeEvent, hfile, hslot, Option.map_some] at hfile'
        exact Option.some.inj hfile' ▸ hprints
      next hk =>
        obtain rfl := Option.some.inj hn
        exact ⟨s, by simp only [write, ha, hpc, if_neg hk], h.keep rfl rfl rfl rfl rfl rfl⟩
  | finishing is_last =>
    rw [hpc] at hn
    dsimp only at hn
    split at hn
    next =>
      obtain rfl := Option.some.inj hn
      exact ⟨s, by simp only [write, ha, hpc], h.keep rfl rfl rfl rfl rfl rfl⟩
    next => contradiction
  | stopped =>
    rw [hpc] at hn
    dsimp only at hn
    split at hn
    next =>
      obtain rfl := Option.some.inj hn
      refine ⟨s, by simp only [write, ha, hpc], ?_⟩
      unfold Tracer.flush
      split <;> exact h.keep rfl rfl rfl rfl rfl rfl
    next => contradiction
  | closing =>
    rw [hpc] at hn
    obtain ⟨file, hfile, rfl⟩ := Option.map_eq_some_iff.mp hn
    obtain ⟨events, hevents, hproper, htext, -⟩ := h.file file hfile
    refine ⟨{ s with text := [], texts := s.texts ++ [s.text ++ footer] },
      by simp only [write, ha, hpc], nofun, ?_⟩
    refine List.rel_append h.texts (.cons ⟨s.time_offset, events, hevents, hproper, ?_⟩ .nil)
    rw [htext, List.append_assoc]

/-- Only proper events are accepted. -/
theorem Printed.accepted_next (h : s.Printed) {a : TraceLabel RawEvent n} (ha : a.Records)
    {r : RecordedTracer RawEvent n} (hn : s.recorded.next a = some r) :
    ∀ raw ∈ r.accepted, raw.Proper := by
  obtain ⟨tracer, -, rfl⟩ := Option.map_eq_some_iff.mp hn
  cases a with
  | step i =>
    dsimp only
    split
    next => exact nofun
    next => exact h.accepted
  | call i c =>
    cases c with
    | mtr_init => exact nofun
    | mtr_flush => exact h.accepted
    | mtr_shutdown => exact h.accepted
    | internal_mtr_raw_event raw =>
      dsimp only
      split
      next => exact h.accepted
      next =>
        intro event he
        rcases List.mem_append.mp he with he | he
        · exact h.accepted event he
        · rw [List.mem_singleton.mp he]
          exact ha

/-- **What the tracer does can be written**, and what is written is as it was before: lines of
proper events. -/
theorem Printed.next (h : s.Printed) {a : TextLabel n} (ha : s.Permits a)
    {r : RecordedTracer RawEvent n} (hn : s.recorded.next a.label = some r) :
    ∃ t, s.next a = some t ∧ t.recorded = r ∧ t.Printed := by
  obtain ⟨tracer, htracer, hr⟩ := Option.map_eq_some_iff.mp hn
  have hsame : r.tracer = tracer := by
    rw [← hr]
    split
    · rfl
    · split <;> rfl
    · rfl
    · split <;> rfl
  obtain ⟨t, hwrite, hfile, htexts⟩ : ∃ t, s.write a = some t ∧
      (∀ file, tracer.f = some file → t.Prints file) ∧
        List.Forall₂ PrintedAs t.texts tracer.closed := by
    unfold Tracer.next at htracer
    split at htracer
    next i c hlabel =>
      split at htracer
      next => exact h.call hlabel htracer
      next => contradiction
    next i hlabel => exact h.step hlabel htracer
  obtain ⟨flusher, htraced⟩ := h.traced
  refine ⟨{ t with recorded := r }, ?_, rfl, htraced.next ha.1 hn, h.accepted_next ha.2 hn,
    fun file hf => hfile file (hsame ▸ hf), hsame ▸ htexts⟩
  rw [TextTracer.next, hn, Option.bind_some, hwrite, Option.map_some]

theorem printed_of_reach (h : (textMachine n).ReachWhile (fun s a => s.Permits a) s) :
    s.Printed := by
  refine h.invariant (fun s hs => ?_) fun s a t hI ha hn => ?_
  · obtain rfl : s = {} := hs
    exact ⟨RecordedTracer.traced_of_reach ⟨{}, rfl, .refl⟩, nofun, nofun, .nil⟩
  · obtain ⟨r, hr, -⟩ := Option.bind_eq_some_iff.mp hn
    obtain ⟨t', hn', -, hI'⟩ := hI.next ha hr
    obtain rfl := Option.some.inj (hn'.symm.trans hn)
    exact hI'

end TextTracer

/-- What the files of these sessions hold: the first all its events, the later ones none. -/
def filed {ε : Type} : List (List ε) → List (List ε)
  | [] => []
  | first :: later => first :: later.map fun _ => []

theorem firstOnly_eq_filed {ε : Type} (sessions : List (List ε)) :
    firstOnly sessions = (filed sessions).map (List.map some) := by
  cases sessions with
  | nil => rfl
  | cons first later => simp [firstOnly, filed]

theorem TextTracer.PrintedAs.readJson {text : List Char} {events : List RawEvent}
    (h : PrintedAs text (events.map some)) :
    ∃ time_offset, readJson text = some (traceJson time_offset events) := by
  obtain ⟨time_offset, printed, hsame, hproper, rfl⟩ := h
  obtain rfl := (Option.some_injective _).list_map hsame
  exact ⟨time_offset, readJson_lines time_offset hproper⟩

/-- **The trace files are JSON.**  Whatever the threads do, as long as the events are proper ones,
whatever the tracer does can be printed; and each file that was closed reads as a trace, the first
one with all events of its session in the order in which they were accepted, the later ones with
none. -/
theorem trace_readsBack {n : Nat} {s : TextTracer n}
    (h : (textMachine n).ReachWhile (fun s a => s.Permits a) s) :
    (∀ a r, s.Permits a → s.recorded.next a.label = some r →
        ∃ t, s.next a = some t ∧ t.recorded = r) ∧
      List.Forall₂
        (fun text events => ∃ time_offset, readJson text = some (traceJson time_offset events))
        s.texts (filed s.recorded.sessions) := by
  have hprinted := TextTracer.printed_of_reach h
  refine ⟨fun a r ha hn => ?_, ?_⟩
  · obtain ⟨t, ht, hrecorded, -⟩ := hprinted.next ha hn
    exact ⟨t, ht, hrecorded⟩
  · obtain ⟨flusher, htraced⟩ := hprinted.traced
    have htexts := hprinted.texts
    rw [htraced.closed, firstOnly_eq_filed, List.forall₂_map_right_iff] at htexts
    exact htexts.imp fun _ _ hprinted => hprinted.readJson

instance {n : Nat} : (a : TraceLabel RawEvent n) → Decidable a.Records
  | .call _ (.internal_mtr_raw_event raw) => inferInstanceAs (Decidable raw.Proper)
  | .call _ .mtr_init | .call _ .mtr_flush | .call _ .mtr_shutdown | .step _ => .isTrue trivial

instance {n : Nat} (s : TextTracer n) (a : TextLabel n) : Decidable (s.Permits a) :=
  inferInstanceAs (Decidable (_ ∧ _))

/-- The scope of `Workqueue::push`. -/
def insertingPacket : RawEvent where
  name := "Inserting Packet".toList
  cat := "Workqueue".toList
  id := 1
  ts := 5000
  pid := 11
  tid := 12
  ph := 'X'
  arg_type := .MTR_ARG_TYPE_NONE
  arg_name := []
  a_str := []
  a_int := 0
  dur := 3

/-- Two sessions with this event. -/
def twoTexts {n : Nat} (i : Fin n) : List (TextLabel n) :=
  let session (steps : Nat) : List (TraceLabel RawEvent n) :=
    [.call i .mtr_init, .call i (.internal_mtr_raw_event insertingPacket), .step i, .step i,
      .call i .mtr_shutdown] ++ List.replicate steps (.step i)
  (session 6 ++ session 2).map fun label => { label }

theorem trace_readsBack_twoTexts :
    let s := ((textMachine 1).runWhile (fun s a => s.Permits a) {}
      (twoTexts 0)).get (by decide +kernel)
    (∀ a r, s.Permits a → s.recorded.next a.label = some r →
        ∃ t, s.next a = some t ∧ t.recorded = r) ∧
      List.Forall₂
        (fun text events => ∃ time_offset, readJson text = some (traceJson time_offset events))
        s.texts (filed s.recorded.sessions) :=
  trace_readsBack
    ⟨{}, rfl, Machine.leads_of_runWhile (Option.some_get (by decide +kernel)).symm⟩

end NetShare
