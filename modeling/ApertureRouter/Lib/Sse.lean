import ApertureRouter.Lib.Text

/-!
# Server-sent events

An event is written as an optional `event: ` line, a `data: ` line and a blank line. Lines end in
`\n` or `\r\n`.

* `body`: the text of a list of events. `flatMap_lines_append`: its lines determine its events.
* `content`: the lines of a text that are not blank, without their terminators (`content_body`).
* `content_append`: a cut either leaves the lines of the text as they are or makes them lighter
  (`weight`): a reader that starts afresh in each chunk can tell only by what it loses.
* `Between`: a cut behind the data of an event. `between_or_inside`: any other cut is inside an
  event.
-/

namespace Sse

open Lines Text

structure Event where
  event : Option (List Char)
  data : List Char
  deriving DecidableEq, Repr

/-- No line terminator is in `s`. -/
structure OneLine (s : List Char) : Prop where
  noLf : '\n' ∉ s
  noCr : '\r' ∉ s

/-- The event can be written on lines. -/
structure Event.Fits (e : Event) : Prop where
  event : ∀ t ∈ e.event, OneLine t
  data : OneLine e.data

instance (s : List Char) : Decidable (OneLine s) :=
  decidable_of_iff ('\n' ∉ s ∧ '\r' ∉ s) ⟨fun h => ⟨h.1, h.2⟩, fun h => ⟨h.1, h.2⟩⟩

instance (e : Event) : Decidable e.Fits :=
  decidable_of_iff ((∀ t ∈ e.event, OneLine t) ∧ OneLine e.data)
    ⟨fun h => ⟨h.1, h.2⟩, fun h => ⟨h.1, h.2⟩⟩

/-- How the lines of a body end. -/
inductive LineEnd where
  | lf | crlf
  deriving DecidableEq, Repr

def LineEnd.text : LineEnd → List Char
  | .lf => ['\n']
  | .crlf => ['\r', '\n']

def eventLine (t : List Char) : List Char := "event: ".toList ++ t

def dataLine (d : List Char) : List Char := "data: ".toList ++ d

theorem stripPrefix_eventLine (t : List Char) :
    stripPrefix "event: ".toList (eventLine t) = some t := stripPrefix_append _ t

theorem stripPrefix_dataLine (d : List Char) :
    stripPrefix "data: ".toList (dataLine d) = some d := stripPrefix_append _ d

/-- A data line is no `event: ` line. -/
theorem stripPrefix_event_dataLine (d : List Char) :
    stripPrefix "event: ".toList (dataLine d) = none := rfl

/-- A line is an `event: ` line, a data line, or neither. -/
theorem eventLine_or_dataLine (l : List Char) :
    (∃ t, l = eventLine t) ∨ (∃ d, l = dataLine d) ∨
      stripPrefix "event: ".toList l = none ∧ stripPrefix "data: ".toList l = none := by
  cases he : stripPrefix "event: ".toList l with
  | some t => exact .inl ⟨t, stripPrefix_eq_some_iff.mp he⟩
  | none =>
    cases hd : stripPrefix "data: ".toList l with
    | some d => exact .inr (.inl ⟨d, stripPrefix_eq_some_iff.mp hd⟩)
    | none => exact .inr (.inr ⟨rfl, rfl⟩)

/-- The lines of an event, without the blank one. -/
def Event.lines (e : Event) : List (List Char) :=
  match e.event with
  | some t => [eventLine t, dataLine e.data]
  | none => [dataLine e.data]

def Event.text (eol : LineEnd) (e : Event) : List Char :=
  e.lines.flatMap (· ++ eol.text) ++ eol.text

/-- The text of a list of events. -/
def body (eol : LineEnd) (es : List Event) : List Char := es.flatMap (Event.text eol)

theorem body_append (eol : LineEnd) (a b : List Event) :
    body eol (a ++ b) = body eol a ++ body eol b := List.flatMap_append

theorem body_cons (eol : LineEnd) (e : Event) (es : List Event) :
    body eol (e :: es) = e.text eol ++ body eol es := rfl

/-! ## Lines that are not blank -/

/-- The lines that are not blank, without the `\r` at their ends. -/
def nonblank (ls : List (List Char)) : List (List Char) :=
  (ls.map (trimEndMatches '\r')).filter (!·.isEmpty)

/-- The lines of `cs` that are not blank. The last one need not have ended. -/
def content (cs : List Char) : List (List Char) := nonblank (pieces '\n' cs)

@[simp] theorem nonblank_nil : nonblank [] = [] := rfl

@[simp] theorem nonblank_append (a b : List (List Char)) :
    nonblank (a ++ b) = nonblank a ++ nonblank b := by
  simp [nonblank]

theorem nonblank_cons (l : List Char) (ls : List (List Char)) :
    nonblank (l :: ls) = nonblank [l] ++ nonblank ls :=
  nonblank_append [l] ls

theorem nonblank_singleton (l : List Char) :
    nonblank [l] = if trimEndMatches '\r' l = [] then [] else [trimEndMatches '\r' l] := by
  by_cases h : trimEndMatches '\r' l = [] <;> simp [nonblank, h]

theorem mem_nonblank {l : List Char} {ls : List (List Char)} :
    l ∈ nonblank ls ↔ ∃ m ∈ ls, trimEndMatches '\r' m = l ∧ l ≠ [] := by
  unfold nonblank
  rw [List.mem_filter, List.mem_map, Bool.not_eq_true', List.isEmpty_eq_false_iff]
  constructor
  · rintro ⟨⟨m, hm, hl⟩, hne⟩
    exact ⟨m, hm, hl, hne⟩
  · rintro ⟨m, hm, hl, hne⟩
    exact ⟨⟨m, hm, hl⟩, hne⟩

theorem nonblank_notMem {ls : List (List Char)} (h : ∀ l ∈ ls, '\n' ∉ l) :
    ∀ l ∈ nonblank ls, '\n' ∉ l := by
  intro l hl hmem
  obtain ⟨m, hm, rfl, -⟩ := mem_nonblank.mp hl
  exact h m hm ((trimEndMatches_prefix_self '\r' m).subset hmem)

/-- The lines that `str::lines` gives are those of the text. -/
theorem nonblank_lines (cs : List Char) : nonblank (Text.lines cs) = content cs := by
  have hmap : ∀ ls, nonblank (ls.map (stripSuffix '\r')) = nonblank ls := fun ls => by
    simp only [nonblank, List.map_map]
    congr 2
    funext l
    exact trimEndMatches_stripSuffix '\r' l
  rw [Text.lines, content, pieces, nonblank_append, nonblank_append, hmap]
  congr 1
  split
  · rename_i h
    rw [h]
    rfl
  · rfl

/-- What a reader can lose of a line when the line is cut: its length less one. -/
def weight : List (List Char) → Nat
  | [] => 0
  | l :: ls => l.length - 1 + weight ls

@[simp] theorem weight_nil : weight [] = 0 := rfl

@[simp] theorem weight_cons (l : List Char) (ls : List (List Char)) :
    weight (l :: ls) = l.length - 1 + weight ls := rfl

@[simp] theorem weight_append (a b : List (List Char)) :
    weight (a ++ b) = weight a + weight b := by
  induction a with
  | nil => simp
  | cons l a ih =>
    rw [List.cons_append, weight_cons, weight_cons, ih]
    omega

/-- A line is cut: at one of its ends nothing happens, inside it becomes lighter. -/
theorem nonblank_join (r f : List Char) :
    nonblank [r ++ f] = nonblank [r] ++ nonblank [f] ∨
      r ≠ [] ∧ nonblank [f] ≠ [] ∧
        weight (nonblank [r]) + weight (nonblank [f]) < weight (nonblank [r ++ f]) := by
  by_cases hr : r = []
  · exact .inl (by subst hr; rfl)
  rw [nonblank_singleton (r ++ f), nonblank_singleton f, trimEndMatches_append]
  by_cases hf : trimEndMatches '\r' f = []
  · rw [if_pos hf, if_pos hf, List.append_nil, ← nonblank_singleton]
    exact .inl rfl
  · rw [if_neg hf, if_neg hf, if_neg (by simp [hf])]
    have hlen : weight (nonblank [r]) < r.length := by
      have hle := (trimEndMatches_prefix_self '\r' r).length_le
      have hpos : 0 < r.length := List.length_pos_iff.mpr hr
      rw [nonblank_singleton]
      split
      · exact hpos
      · simp only [weight_cons, weight_nil]
        omega
    have hpos : 0 < (trimEndMatches '\r' f).length := List.length_pos_iff.mpr hf
    refine .inr ⟨hr, by simp, ?_⟩
    simp only [weight_cons, weight_nil, List.length_append]
    omega

/-- **Cuts.** A cut of a text leaves its lines as they are, or makes them lighter. -/
theorem content_append (x y : List Char) :
    content (x ++ y) = content x ++ content y ∨
      weight (content x) + weight (content y) < weight (content (x ++ y)) := by
  obtain ⟨init, f, g, hx, hy, hxy⟩ := pieces_append '\n' x y
  unfold content
  rw [hx, hy, hxy, nonblank_append, nonblank_append, nonblank_cons (_ ++ f), nonblank_cons f]
  rcases nonblank_join (split '\n' x).2 f with h | ⟨-, -, h⟩
  · exact .inl (by simp [h])
  · refine .inr ?_
    simp only [weight_append]
    omega

/-- A text of line terminators. -/
def Terminators (s : List Char) : Prop := ∀ c ∈ s, c = '\n' ∨ c = '\r'

theorem content_cons_newline (s : List Char) : content ('\n' :: s) = content s := rfl

/-- Only line terminators make no line. -/
theorem content_eq_nil_iff {s : List Char} : content s = [] ↔ Terminators s := by
  induction s with
  | nil => exact iff_of_true rfl (by simp [Terminators])
  | cons c s ih =>
    by_cases hc : c = '\n'
    · subst hc
      rw [content_cons_newline, ih]
      simp [Terminators]
    · obtain ⟨init, f, g, hx, hy, hxy⟩ := pieces_append '\n' [c] s
      have hcs : pieces '\n' [c] = [[c]] ∧ (split '\n' [c]).2 = [c] := by
        simp [pieces, split, scan, hc]
      obtain rfl : init = [] := by simpa [hcs] using hx
      rw [hcs.2] at hxy
      have hnil : ∀ l : List Char, nonblank [l] = [] ↔ ∀ d ∈ l, d = '\r' := fun l => by
        rw [nonblank_singleton, ← trimEndMatches_eq_nil_iff]
        split <;> simp [*]
      unfold content at ih ⊢
      rw [hy, nonblank_cons, List.append_eq_nil_iff] at ih
      have hcons : pieces '\n' (c :: s) = ([c] ++ f) :: g := hxy
      rw [hcons, nonblank_cons, List.append_eq_nil_iff, hnil]
      rw [hnil] at ih
      have hterm : Terminators (c :: s) ↔ c = '\r' ∧ Terminators s := by
        simp [Terminators, hc]
      rw [hterm, ← ih]
      simp [and_assoc]

/-- A newline ends the line. -/
theorem content_newline (x y : List Char) :
    content (x ++ '\n' :: y) = content x ++ content y := by
  obtain ⟨init, f, g, hx, hy, hxy⟩ := pieces_append '\n' x ('\n' :: y)
  have hcons : pieces '\n' ('\n' :: y) = [] :: pieces '\n' y := rfl
  obtain ⟨rfl, rfl⟩ := List.cons.inj (hcons.symm.trans hy)
  unfold content
  rw [hxy, hx, List.append_nil, nonblank_append, nonblank_append, nonblank_cons, List.append_assoc]

/-- Line terminators behind a text add no line. -/
theorem content_append_terminators (x : List Char) {y : List Char} (h : Terminators y) :
    content (x ++ y) = content x := by
  obtain ⟨init, f, g, hx, hy, hxy⟩ := pieces_append '\n' x y
  have hnil := content_eq_nil_iff.mpr h
  unfold content at hnil ⊢
  rw [hy, nonblank_cons, List.append_eq_nil_iff] at hnil
  rw [hxy, hx, nonblank_append, nonblank_append, nonblank_cons, hnil.2, List.append_nil]
  rcases nonblank_join (split '\n' x).2 f with hj | ⟨-, hf, -⟩
  · rw [hj, hnil.1, List.append_nil]
  · exact absurd hnil.1 hf

/-! ## The lines of a body -/

theorem LineEnd.terminators (eol : LineEnd) : Terminators eol.text := by
  cases eol <;> simp [Terminators, LineEnd.text]

theorem content_line {l : List Char} (h : OneLine l) (hne : l ≠ []) : content l = [l] := by
  have htrim := trimEndMatches_of_notMem h.noCr
  rw [content, pieces, split_of_notMem h.noLf, List.nil_append, nonblank_singleton, htrim,
    if_neg hne]

/-- A line ends. -/
theorem content_append_eol (eol : LineEnd) (x s : List Char) :
    content (x ++ (eol.text ++ s)) = content x ++ content s := by
  cases eol with
  | lf => exact content_newline x s
  | crlf =>
    have happ : x ++ (LineEnd.crlf.text ++ s) = (x ++ ['\r']) ++ '\n' :: s := by
      simp [LineEnd.text]
    rw [happ, content_newline, content_append_terminators x (by simp [Terminators])]

theorem content_eol_append (eol : LineEnd) (s : List Char) : content (eol.text ++ s) = content s :=
  content_append_eol eol [] s

theorem OneLine.append {a b : List Char} (ha : OneLine a) (hb : OneLine b) : OneLine (a ++ b) where
  noLf h := (List.mem_append.mp h).elim ha.noLf hb.noLf
  noCr h := (List.mem_append.mp h).elim ha.noCr hb.noCr

theorem oneLine_eventLine {t : List Char} (h : OneLine t) : OneLine (eventLine t) :=
  OneLine.append ⟨by decide +kernel, by decide +kernel⟩ h

theorem oneLine_dataLine {d : List Char} (h : OneLine d) : OneLine (dataLine d) :=
  OneLine.append ⟨by decide +kernel, by decide +kernel⟩ h

theorem length_eventLine (t : List Char) : (eventLine t).length = t.length + 7 := by
  have hlen : "event: ".toList.length = 7 := by decide +kernel
  unfold eventLine
  rw [List.length_append, hlen, Nat.add_comm]

theorem eventLine_ne_nil (t : List Char) : eventLine t ≠ [] := fun h =>
  absurd (List.append_eq_nil_iff.mp h).1 (by decide +kernel)

theorem dataLine_ne_nil (d : List Char) : dataLine d ≠ [] := fun h =>
  absurd (List.append_eq_nil_iff.mp h).1 (by decide +kernel)

/-- The lines of an event, without the terminators behind the last one. -/
def Event.head (eol : LineEnd) (e : Event) : List Char :=
  match e.event with
  | some t => eventLine t ++ (eol.text ++ dataLine e.data)
  | none => dataLine e.data

theorem Event.text_eq (eol : LineEnd) (e : Event) :
    e.text eol = e.head eol ++ (eol.text ++ eol.text) := by
  unfold text head lines
  cases e.event <;> simp

theorem content_head (eol : LineEnd) {e : Event} (h : e.Fits) :
    content (e.head eol) = e.lines := by
  have hdata := content_line (oneLine_dataLine h.data) (dataLine_ne_nil e.data)
  unfold Event.head Event.lines
  cases hev : e.event with
  | none => exact hdata
  | some t =>
    have ht := content_line (oneLine_eventLine (h.event t (by simp [hev]))) (eventLine_ne_nil t)
    exact (content_append_eol eol _ _).trans (by rw [ht, hdata]; rfl)

theorem content_text_append (eol : LineEnd) {e : Event} (h : e.Fits) (s : List Char) :
    content (e.text eol ++ s) = e.lines ++ content s := by
  rw [Event.text_eq, List.append_assoc, List.append_assoc, content_append_eol, content_eol_append,
    content_head eol h]

/-- The lines of a body, and of what comes behind it. -/
theorem content_body_append (eol : LineEnd) {es : List Event} (h : ∀ e ∈ es, e.Fits)
    (s : List Char) : content (body eol es ++ s) = es.flatMap Event.lines ++ content s := by
  induction es with
  | nil => rfl
  | cons e es ih =>
    rw [body_cons, List.append_assoc, content_text_append eol (h e (by simp)),
      ih fun e he => h e (by simp [he]), List.flatMap_cons, List.append_assoc]

theorem content_body (eol : LineEnd) {es : List Event} (h : ∀ e ∈ es, e.Fits) :
    content (body eol es) = es.flatMap Event.lines := by
  have hnil : content [] = [] := rfl
  have := content_body_append eol h []
  rwa [List.append_nil, hnil, List.append_nil] at this

/-- The `\r` of a line end. -/
def LineEnd.cr : LineEnd → List Char
  | .lf => []
  | .crlf => ['\r']

/-- The lines of a body, the blank ones too, as they end before `\n`. -/
def rawLines (eol : LineEnd) (es : List Event) : List (List Char) :=
  es.flatMap fun e => (e.lines ++ [[]]).map (· ++ eol.cr)

theorem body_eq_rawLines (eol : LineEnd) (es : List Event) :
    body eol es = (rawLines eol es).flatMap (· ++ ['\n']) := by
  have htext : ∀ l : List Char, l ++ eol.text = l ++ eol.cr ++ ['\n'] := fun l => by
    cases eol <;> simp [LineEnd.text, LineEnd.cr]
  unfold body rawLines
  rw [List.flatMap_assoc]
  congr 1
  funext e
  rw [Event.text, List.flatMap_map, List.flatMap_append, List.flatMap_singleton, ← htext]
  simp only [htext, List.nil_append, List.append_assoc]

theorem oneLine_lines {e : Event} (h : e.Fits) : ∀ l ∈ e.lines, OneLine l := by
  intro l hl
  unfold Event.lines at hl
  cases hev : e.event with
  | none =>
    simp only [hev, List.mem_singleton] at hl
    exact hl ▸ oneLine_dataLine h.data
  | some t =>
    simp only [hev, List.mem_cons, List.not_mem_nil, or_false] at hl
    rcases hl with rfl | rfl
    · exact oneLine_eventLine (h.event t (by simp [hev]))
    · exact oneLine_dataLine h.data

theorem oneLine_flatMap_lines {es : List Event} (h : ∀ e ∈ es, e.Fits) :
    ∀ l ∈ es.flatMap Event.lines, OneLine l := by
  intro l hl
  obtain ⟨e, he, hl⟩ := List.mem_flatMap.mp hl
  exact oneLine_lines (h e he) l hl

/-- A line of a body and its end. -/
theorem mem_rawLines {eol : LineEnd} {es : List Event} (h : ∀ e ∈ es, e.Fits) {l : List Char}
    (hl : l ∈ rawLines eol es) : ∃ line, OneLine line ∧ l = line ++ eol.cr := by
  obtain ⟨e, he, hl⟩ := List.mem_flatMap.mp hl
  obtain ⟨line, hline, rfl⟩ := List.mem_map.mp hl
  refine ⟨line, ?_, rfl⟩
  rcases List.mem_append.mp hline with hline | hblank
  · exact oneLine_lines (h e he) line hline
  · rw [List.mem_singleton.mp hblank]
    exact ⟨by simp, by simp⟩

/-- Every line of a body ends. -/
theorem split_body (eol : LineEnd) {es : List Event} (h : ∀ e ∈ es, e.Fits) :
    split '\n' (body eol es) = (rawLines eol es, []) := by
  have hlf : ∀ l ∈ rawLines eol es, '\n' ∉ l := by
    intro l hl
    obtain ⟨line, hline, rfl⟩ := mem_rawLines h hl
    have hcr : '\n' ∉ eol.cr := by cases eol <;> decide
    exact fun hmem => (List.mem_append.mp hmem).elim hline.noLf hcr
  have := split_flatMap hlf []
  rwa [List.append_nil, ← body_eq_rawLines, split_nil, List.append_nil] at this

/-- Without its end a line of a body is on one line. -/
theorem oneLine_stripSuffix {eol : LineEnd} {es : List Event} (h : ∀ e ∈ es, e.Fits) :
    ∀ l ∈ rawLines eol es, OneLine (stripSuffix '\r' l) := by
  intro l hl
  obtain ⟨line, hline, rfl⟩ := mem_rawLines h hl
  cases eol with
  | lf => rwa [LineEnd.cr, List.append_nil, stripSuffix_of_notMem hline.noCr]
  | crlf => rwa [LineEnd.cr, stripSuffix_append]

theorem eventLine_ne_dataLine (t d : List Char) : eventLine t ≠ dataLine d := fun h =>
  absurd (congrArg List.head? h) (by
    have hevent : (eventLine t).head? = some 'e' := rfl
    have hdata : (dataLine d).head? = some 'd' := rfl
    rw [hevent, hdata]
    decide)

/-- Lines determine their events. -/
theorem flatMap_lines_append {pre es : List Event} {r : List (List Char)}
    (h : pre.flatMap Event.lines ++ r = es.flatMap Event.lines) :
    ∃ post, es = pre ++ post ∧ r = post.flatMap Event.lines := by
  induction pre generalizing es with
  | nil => exact ⟨es, rfl, h⟩
  | cons e pre ih =>
    obtain ⟨t, d⟩ := e
    cases es with
    | nil => cases t <;> simp [Event.lines] at h
    | cons e' es =>
      obtain ⟨t', d'⟩ := e'
      cases t <;> cases t' <;>
        simp only [List.flatMap_cons, Event.lines, List.cons_append, List.nil_append,
          List.cons.injEq] at h
      case none.none =>
        obtain ⟨post, rfl, hr⟩ := ih h.2
        exact ⟨post, by rw [List.append_cancel_left h.1, List.cons_append], hr⟩
      case none.some => exact absurd h.1.symm (eventLine_ne_dataLine _ _)
      case some.none => exact absurd h.1 (eventLine_ne_dataLine _ _)
      case some.some =>
        obtain ⟨post, rfl, hr⟩ := ih h.2.2
        refine ⟨post, ?_, hr⟩
        rw [List.append_cancel_left h.1, List.append_cancel_left h.2.1, List.cons_append]

/-- The lines `ls` in front of `r` are those of the first events of `es`, and perhaps the type of the
next one. -/
def WholeOrTyped (es : List Event) (ls r : List (List Char)) : Prop :=
  (∃ pre post, es = pre ++ post ∧ ls = pre.flatMap Event.lines ∧ r = post.flatMap Event.lines) ∨
    ∃ pre e post t, es = pre ++ e :: post ∧ e.event = some t ∧
      ls = pre.flatMap Event.lines ++ [eventLine t] ∧ r = dataLine e.data :: post.flatMap Event.lines

theorem WholeOrTyped.cons {es : List Event} {ls r : List (List Char)} (h : WholeOrTyped es ls r)
    (e : Event) : WholeOrTyped (e :: es) (e.lines ++ ls) r := by
  rcases h with ⟨pre, post, rfl, rfl, rfl⟩ | ⟨pre, f, post, t, rfl, hf, rfl, rfl⟩
  · exact .inl ⟨e :: pre, post, rfl, rfl, rfl⟩
  · exact .inr ⟨e :: pre, f, post, t, rfl, hf, by simp, rfl⟩

/-- The first lines of a list of events are whole events, or end with the type of one. -/
theorem flatMap_lines_prefix {es : List Event} {ls r : List (List Char)}
    (h : ls ++ r = es.flatMap Event.lines) : WholeOrTyped es ls r := by
  induction es generalizing ls with
  | nil =>
    obtain ⟨rfl, rfl⟩ := List.append_eq_nil_iff.mp h
    exact .inl ⟨[], [], rfl, rfl, rfl⟩
  | cons e es ih =>
    rw [List.flatMap_cons] at h
    rcases List.append_eq_append_iff.mp h with ⟨a, ha, hr⟩ | ⟨c, rfl, hc⟩
    · -- The lines end in those of `e`.
      obtain ⟨t, d⟩ := e
      cases ls with
      | nil =>
        rw [List.nil_append] at ha
        exact .inl ⟨[], ⟨t, d⟩ :: es, rfl, rfl, by rw [hr, ← ha, List.flatMap_cons]⟩
      | cons l ls =>
        cases t with
        | none =>
          simp only [Event.lines, List.cons_append, List.cons.injEq] at ha
          obtain ⟨rfl, hls⟩ := ha
          obtain ⟨rfl, rfl⟩ := List.append_eq_nil_iff.mp hls.symm
          exact .inl ⟨[⟨none, d⟩], es, rfl, rfl, hr⟩
        | some t =>
          simp only [Event.lines, List.cons_append, List.cons.injEq] at ha
          obtain ⟨rfl, hls⟩ := ha
          cases ls with
          | nil =>
            have ha : a = [dataLine d] := hls.symm
            exact .inr ⟨[], ⟨some t, d⟩, es, t, rfl, rfl, rfl, by rw [hr, ha]; rfl⟩
          | cons m ls =>
            simp only [List.cons_append, List.cons.injEq] at hls
            obtain ⟨rfl, hls⟩ := hls
            obtain ⟨rfl, rfl⟩ := List.append_eq_nil_iff.mp hls.symm
            exact .inl ⟨[⟨some t, d⟩], es, rfl, rfl, hr⟩
    · exact (ih hc.symm).cons e

/-- No event is written in line terminators. -/
theorem eq_nil_of_terminators {eol : LineEnd} {es : List Event} (h : ∀ e ∈ es, e.Fits)
    (hterm : Terminators (body eol es)) : es = [] := by
  have hlines := content_body eol h
  rw [content_eq_nil_iff.mpr hterm] at hlines
  cases es with
  | nil => rfl
  | cons e es => cases hev : e.event <;> simp [Event.lines, hev] at hlines

/-! ## Cuts of a body -/

/-- The text ends behind the data of an event of `es`, or before the first event, up to line
terminators. -/
def Between (eol : LineEnd) (es : List Event) (x : List Char) : Prop :=
  ∃ pre post tail, es = pre ++ post ∧ tail <:+ eol.text ++ eol.text ∧ x ++ tail = body eol pre

/-- Any other cut is inside the lines of an event. -/
theorem between_or_inside {eol : LineEnd} {es : List Event} {x y : List Char}
    (h : x ++ y = body eol es) :
    Between eol es x ∨ ∃ pre e post z w, es = pre ++ e :: post ∧ z ≠ [] ∧ w ≠ [] ∧
      z ++ w = e.head eol ∧ x = body eol pre ++ z ∧
      y = w ++ (eol.text ++ (eol.text ++ body eol post)) := by
  induction es generalizing x with
  | nil =>
    obtain ⟨rfl, rfl⟩ := List.append_eq_nil_iff.mp h
    exact .inl ⟨[], [], [], rfl, List.nil_suffix, rfl⟩
  | cons e es ih =>
    rw [body_cons] at h
    rcases List.append_eq_append_iff.mp h with ⟨a, ha, hy⟩ | ⟨c, hc, hb⟩
    · -- The cut is in the text of `e`.
      rw [Event.text_eq] at ha
      rcases List.append_eq_append_iff.mp ha with ⟨b, hx, heol⟩ | ⟨b, hhead, rfl⟩
      · refine .inl ⟨[e], es, a, rfl, ⟨b, heol.symm⟩, ?_⟩
        rw [hx, List.append_assoc, ← heol, ← Event.text_eq]
        simp [body]
      · by_cases hx : x = []
        · exact .inl ⟨[], e :: es, [], rfl, List.nil_suffix, by rw [hx]; rfl⟩
        · by_cases hb : b = []
          · rw [hb, List.append_nil] at hhead
            refine .inl ⟨[e], es, eol.text ++ eol.text, rfl, List.suffix_refl _, ?_⟩
            rw [← hhead, ← Event.text_eq]
            simp [body]
          · exact .inr ⟨[], e, es, x, b, rfl, hx, hb, hhead.symm, rfl, by simp [hy]⟩
    · rcases ih hb.symm with ⟨pre, post, tail, rfl, ht, hbody⟩ | ⟨pre, f, post, z, w, rfl, hin⟩
      · refine .inl ⟨e :: pre, post, tail, rfl, ht, ?_⟩
        rw [hc, List.append_assoc, hbody, body_cons]
      · obtain ⟨hz, hw, hhead, rfl, hy⟩ := hin
        refine .inr ⟨e :: pre, f, post, z, w, rfl, hz, hw, hhead, ?_, hy⟩
        rw [hc, body_cons, List.append_assoc]

/-- Both sides of a cut inside an event have a line. -/
theorem content_inside {eol : LineEnd} {e : Event} (h : e.Fits) {z w : List Char}
    (hz : z ≠ []) (hw : w ≠ []) (hzw : z ++ w = e.head eol) : content z ≠ [] ∧ content w ≠ [] := by
  constructor
  · intro hc
    obtain ⟨c, z', rfl⟩ := List.exists_cons_of_ne_nil hz
    have hterm := content_eq_nil_iff.mp hc c (by simp)
    -- The first character is that of `event: ` or `data: `.
    have hfirst : (e.head eol).head? = some 'e' ∨ (e.head eol).head? = some 'd' := by
      unfold Event.head
      cases e.event with
      | none => exact .inr rfl
      | some t => exact .inl rfl
    rw [← hzw, List.cons_append, List.head?_cons] at hfirst
    rcases hfirst with hc | hc
    all_goals
      obtain rfl := Option.some.inj hc
      revert hterm
      decide
  · intro hc
    obtain ⟨p, hp⟩ : ∃ p, e.head eol = p ++ dataLine e.data := by
      unfold Event.head
      cases e.event with
      | none => exact ⟨[], rfl⟩
      | some t => exact ⟨eventLine t ++ eol.text, by simp⟩
    have hlast := congrArg List.getLast? (hzw.trans hp)
    rw [List.getLast?_append, List.getLast?_append, List.getLast?_eq_some_getLast hw,
      List.getLast?_eq_some_getLast (dataLine_ne_nil _), Option.some_or, Option.some_or] at hlast
    have hmem : w.getLast hw ∈ dataLine e.data := by
      rw [Option.some.inj hlast]
      exact List.getLast_mem _
    rcases content_eq_nil_iff.mp hc _ (List.getLast_mem hw) with hlf | hcr
    · exact (oneLine_dataLine h.data).noLf (hlf ▸ hmem)
    · exact (oneLine_dataLine h.data).noCr (hcr ▸ hmem)

/-- A cut that is not between events makes the lines lighter, or is behind the `event: ` line of an
event. -/
theorem cut_cases {eol : LineEnd} {es : List Event} (hes : ∀ e ∈ es, e.Fits) {x y : List Char}
    (h : x ++ y = body eol es) :
    Between eol es x ∨
      weight (content x) + weight (content y) < weight (es.flatMap Event.lines) ∨
      ∃ pre e post t, es = pre ++ e :: post ∧ e.event = some t ∧
        content x = pre.flatMap Event.lines ++ [eventLine t] := by
  rcases between_or_inside h with hb | ⟨pre, e, post, z, w, rfl, hz, hw, hzw, rfl, rfl⟩
  · exact .inl hb
  · refine .inr ?_
    have he : e.Fits := hes e (by simp)
    have hx := content_body_append eol (fun f hf => hes f (by simp [hf]) : ∀ f ∈ pre, f.Fits) z
    have hy : content (w ++ (eol.text ++ (eol.text ++ body eol post))) =
        content w ++ post.flatMap Event.lines := by
      rw [content_append_eol, content_eol_append, content_body eol fun f hf => hes f (by simp [hf])]
    have hhead := content_head eol he
    rw [← hzw] at hhead
    rcases content_append z w with hsplit | hlight
    · -- Neither side is without a line, so the event has two and the cut is between them.
      obtain ⟨hzc, hwc⟩ := content_inside he hz hw hzw
      rw [hhead, Event.lines] at hsplit
      obtain ⟨l, ls, hl⟩ := List.exists_cons_of_ne_nil hzc
      obtain ⟨m, ms, hm⟩ := List.exists_cons_of_ne_nil hwc
      rw [hl, hm] at hsplit
      cases hev : e.event with
      | none => simp [hev] at hsplit
      | some t =>
        refine .inr ⟨pre, e, post, t, rfl, hev, ?_⟩
        simp only [hev, List.cons_append, List.cons.injEq] at hsplit
        obtain ⟨rfl, hrest⟩ := hsplit
        cases ls with
        | nil => rw [hx, hl]
        | cons a as => simp at hrest
    · refine .inl ?_
      rw [hx, hy, List.flatMap_append, List.flatMap_cons, ← hhead]
      simp only [weight_append]
      omega

theorem terminators_of_suffix {eol : LineEnd} {tail : List Char}
    (h : tail <:+ eol.text ++ eol.text) : Terminators tail := fun d hd => by
  have := h.subset hd
  rw [List.mem_append] at this
  exact this.elim (eol.terminators d) (eol.terminators d)

/-- The text between two cuts has whole events. -/
theorem content_between {eol : LineEnd} {es : List Event} (hes : ∀ e ∈ es, e.Fits)
    {c tail tail' : List Char} (ht : tail <:+ eol.text ++ eol.text)
    (ht' : tail' <:+ eol.text ++ eol.text) (h : c ++ tail' = tail ++ body eol es) :
    content c = es.flatMap Event.lines := by
  have htail : ∀ s, content (tail ++ s) = content s := by
    cases eol <;> simp only [LineEnd.text, List.cons_append, List.nil_append, List.suffix_cons_iff,
      List.suffix_nil] at ht
    · rcases ht with rfl | rfl | rfl <;> exact fun s => rfl
    · rcases ht with rfl | rfl | rfl | rfl | rfl
      · exact fun s => (content_eol_append .crlf _).trans (content_eol_append .crlf s)
      · exact content_eol_append .crlf
      · exact content_eol_append .crlf
      · exact fun s => rfl
      · exact fun s => rfl
  rw [← content_append_terminators c (terminators_of_suffix ht'), h, htail, content_body eol hes]

/-- Of two cuts between events, the later one is behind the events of the earlier one and those of
the text between them. -/
theorem between_append {eol : LineEnd} {es : List Event} (hes : ∀ e ∈ es, e.Fits)
    {x c tail tail' : List Char} {pre post pre' post' : List Event} (he : es = pre ++ post)
    (he' : es = pre' ++ post') (ht : tail <:+ eol.text ++ eol.text)
    (ht' : tail' <:+ eol.text ++ eol.text) (h : x ++ tail = body eol pre)
    (h' : x ++ c ++ tail' = body eol pre') :
    ∃ mid, pre' = pre ++ mid ∧ content c = mid.flatMap Event.lines := by
  obtain ⟨mid, rfl⟩ : ∃ mid, pre' = pre ++ mid := by
    rcases List.append_eq_append_iff.mp (he.symm.trans he') with ⟨mid, hp, -⟩ | ⟨mid, hp, -⟩
    · exact ⟨mid, hp⟩
    · -- The events behind the later cut would be written in line terminators.
      rw [hp, body_append, ← h', List.append_assoc x, List.append_assoc x,
        List.append_cancel_left_eq] at h
      have hterm : Terminators (body eol mid) := fun d hd =>
        terminators_of_suffix ht d (h ▸ List.mem_append_right _ hd)
      have hnil := eq_nil_of_terminators (fun f hf => hes f (by simp [he, hp, hf])) hterm
      exact ⟨[], by rw [hp, hnil, List.append_nil, List.append_nil]⟩
  refine ⟨mid, rfl, ?_⟩
  rw [body_append, ← h, List.append_assoc, List.append_assoc, List.append_cancel_left_eq] at h'
  exact content_between (fun f hf => hes f (by simp [he', hf])) ht ht' h'

end Sse
