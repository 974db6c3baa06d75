import Mathlib.Data.List.Basic

/-!
# JSON texts

The grammar of JSON (RFC 8259) over lists of characters.

* `Doc`: the syntax tree of a text, with its numbers and strings as they are written. `Doc.depth`
  counts how deeply its arrays and objects are nested.
* `Writes p s`: `s` is written for the part `p` of a tree. A text is written for a `padded` value:
  a value with white space around it.
* `Plain`: no quotation mark and no bracket is in a text, as in white space (`Ws.plain`), numbers
  (`IsNumber.plain`) and literals. What is in a string can be anything (`StringBody`).
-/

namespace JsonGrammar

/-! ## Leaves -/

/-- `*( %x20 / %x09 / %x0A / %x0D )`. -/
def Ws (s : List Char) : Prop := ∀ c ∈ s, c ∈ [' ', '\t', '\n', '\r']

instance (s : List Char) : Decidable (Ws s) := List.decidableBAll _ s

/-- `1*DIGIT`. -/
structure Digits (s : List Char) : Prop where
  ne_nil : s ≠ []
  isDigit : ∀ c ∈ s, c.isDigit = true

/-- `int = zero / ( digit1-9 *DIGIT )`. -/
inductive IsInt : List Char → Prop where
  | zero : IsInt ['0']
  | digits {c : Char} {s : List Char} (hc : c.isDigit = true) (hne : c ≠ '0')
      (hs : ∀ d ∈ s, d.isDigit = true) : IsInt (c :: s)

/-- `[ frac ]`, with `frac = decimal-point 1*DIGIT`. -/
inductive IsFrac : List Char → Prop where
  | none : IsFrac []
  | point {s : List Char} (hs : Digits s) : IsFrac ('.' :: s)

/-- `[ exp ]`, with `exp = e [ minus / plus ] 1*DIGIT`. -/
inductive IsExp : List Char → Prop where
  | none : IsExp []
  | exp {e : Char} {sign s : List Char} (he : e = 'e' ∨ e = 'E')
      (hsign : sign = [] ∨ sign = ['-'] ∨ sign = ['+']) (hs : Digits s) : IsExp (e :: (sign ++ s))

/-- `number = [ minus ] int [ frac ] [ exp ]`. -/
inductive IsNumber : List Char → Prop where
  | mk {minus int frac exp : List Char} (hminus : minus = [] ∨ minus = ['-']) (hint : IsInt int)
      (hfrac : IsFrac frac) (hexp : IsExp exp) : IsNumber (minus ++ int ++ frac ++ exp)

/-- `HEXDIG`. -/
def isHex (c : Char) : Bool :=
  c.isDigit || ('a' ≤ c && c ≤ 'f') || ('A' ≤ c && c ≤ 'F')

/-- `*char`, what stands between the quotation marks of a string. -/
inductive StringBody : List Char → Prop where
  | nil : StringBody []
  | unescaped {c : Char} {s : List Char} (hc : ' ' ≤ c) (hquote : c ≠ '\x22')
      (hbackslash : c ≠ '\x5c') (hs : StringBody s) : StringBody (c :: s)
  | escape {c : Char} {s : List Char}
      (hc : c ∈ ['\x22', '\x5c', '/', 'b', 'f', 'n', 'r', 't']) (hs : StringBody s) :
      StringBody ('\x5c' :: c :: s)
  | unicode {hex s : List Char} (hlen : hex.length = 4) (hhex : ∀ c ∈ hex, isHex c = true)
      (hs : StringBody s) : StringBody ('\x5c' :: 'u' :: (hex ++ s))

/-! ## Trees -/

/-- The syntax tree of a text. -/
inductive Doc where
  | null
  | bool (b : Bool)
  | number (text : List Char)
  | string (body : List Char)
  | array (elements : List Doc)
  | object (members : List (List Char × Doc))

mutual

/-- How deeply arrays and objects are nested. -/
def Doc.depth : Doc → Nat
  | .null | .bool _ | .number _ | .string _ => 0
  | .array ds => elementsDepth ds + 1
  | .object ms => membersDepth ms + 1

def elementsDepth : List Doc → Nat
  | [] => 0
  | d :: ds => max d.depth (elementsDepth ds)

def membersDepth : List (List Char × Doc) → Nat
  | [] => 0
  | (_, d) :: ms => max d.depth (membersDepth ms)

end

/-- A part of a tree that is written in one piece. -/
inductive Part where
  | value (d : Doc)
  | padded (d : Doc)
  | elements (ds : List Doc)
  | member (key : List Char) (d : Doc)
  | members (ms : List (List Char × Doc))

def Part.depth : Part → Nat
  | .value d | .padded d | .member _ d => d.depth
  | .elements ds => elementsDepth ds
  | .members ms => membersDepth ms

/-- The text is written for the part. -/
inductive Writes : Part → List Char → Prop where
  | null : Writes (.value .null) ['n', 'u', 'l', 'l']
  | true : Writes (.value (.bool true)) ['t', 'r', 'u', 'e']
  | false : Writes (.value (.bool false)) ['f', 'a', 'l', 's', 'e']
  | number {s : List Char} (h : IsNumber s) : Writes (.value (.number s)) s
  | string {s : List Char} (h : StringBody s) :
      Writes (.value (.string s)) ('\x22' :: (s ++ ['\x22']))
  | emptyArray {w : List Char} (hw : Ws w) : Writes (.value (.array [])) ('[' :: (w ++ [']']))
  | array {ds : List Doc} {s : List Char} (h : Writes (.elements ds) s) :
      Writes (.value (.array ds)) ('[' :: (s ++ [']']))
  | emptyObject {w : List Char} (hw : Ws w) :
      Writes (.value (.object [])) ('\x7b' :: (w ++ ['\x7d']))
  | object {ms : List (List Char × Doc)} {s : List Char} (h : Writes (.members ms) s) :
      Writes (.value (.object ms)) ('\x7b' :: (s ++ ['\x7d']))
  | padded {d : Doc} {w s w' : List Char} (hw : Ws w) (h : Writes (.value d) s) (hw' : Ws w') :
      Writes (.padded d) (w ++ (s ++ w'))
  | lastElement {d : Doc} {s : List Char} (h : Writes (.padded d) s) : Writes (.elements [d]) s
  | element {d : Doc} {ds : List Doc} {s t : List Char} (h : Writes (.padded d) s)
      (hs : Writes (.elements ds) t) : Writes (.elements (d :: ds)) (s ++ ',' :: t)
  | member {key : List Char} {d : Doc} {w w' s : List Char} (hw : Ws w) (hkey : StringBody key)
      (hw' : Ws w') (h : Writes (.padded d) s) :
      Writes (.member key d) (w ++ ('\x22' :: (key ++ ['\x22']) ++ (w' ++ ':' :: s)))
  | lastMember {key : List Char} {d : Doc} {s : List Char} (h : Writes (.member key d) s) :
      Writes (.members [(key, d)]) s
  | members {key : List Char} {d : Doc} {ms : List (List Char × Doc)} {s t : List Char}
      (h : Writes (.member key d) s) (hs : Writes (.members ms) t) :
      Writes (.members ((key, d) :: ms)) (s ++ ',' :: t)

theorem IsInt.isNumber {s : List Char} (h : IsInt s) : IsNumber s := by
  have hnumber := IsNumber.mk (.inl rfl) h .none .none
  rw [List.append_nil, List.append_nil] at hnumber
  exact hnumber

/-- White space in front of a value, and none behind it. -/
theorem Writes.spaced {d : Doc} {w s : List Char} (hw : Ws w) (h : Writes (.value d) s) :
    Writes (.padded d) (w ++ s) := by
  have hpadded := Writes.padded hw h (show Ws [] by decide)
  rw [List.append_nil] at hpadded
  exact hpadded

theorem Writes.bare {d : Doc} {s : List Char} (h : Writes (.value d) s) : Writes (.padded d) s :=
  .spaced (show Ws [] by decide) h

/-! ## Plain text -/

/-- No quotation mark and no bracket is in the text. -/
def Plain (s : List Char) : Prop := ∀ c ∈ s, c ∉ ['\x22', '\x7b', '\x7d', '[', ']']

instance (s : List Char) : Decidable (Plain s) := List.decidableBAll _ s

theorem Plain.append {s t : List Char} (hs : Plain s) (ht : Plain t) : Plain (s ++ t) :=
  fun c hc => (List.mem_append.mp hc).elim (hs c) (ht c)

theorem Plain.cons {c : Char} {s : List Char} (hc : Plain [c]) (hs : Plain s) : Plain (c :: s) :=
  hc.append hs

theorem Ws.plain {s : List Char} (h : Ws s) : Plain s := by
  intro c hc hmark
  have hws := h c hc
  simp only [List.mem_cons, List.not_mem_nil, or_false] at hws hmark
  rcases hws with rfl | rfl | rfl | rfl <;> exact absurd hmark (by decide)

theorem plain_of_isDigit {s : List Char} (h : ∀ c ∈ s, c.isDigit = true) : Plain s := by
  intro c hc hmark
  have hdigit := h c hc
  simp only [List.mem_cons, List.not_mem_nil, or_false] at hmark
  rcases hmark with rfl | rfl | rfl | rfl | rfl <;> exact absurd hdigit (by decide)

theorem IsInt.plain {s : List Char} (h : IsInt s) : Plain s := by
  cases h with
  | zero => decide
  | digits hc _ hs => exact plain_of_isDigit (List.forall_mem_cons.mpr ⟨hc, hs⟩)

theorem IsFrac.plain {s : List Char} (h : IsFrac s) : Plain s := by
  cases h with
  | none => decide
  | point hs => exact .cons (by decide) (plain_of_isDigit hs.isDigit)

theorem IsExp.plain {s : List Char} (h : IsExp s) : Plain s := by
  cases h with
  | none => decide
  | exp he hsign hs =>
    have hs := plain_of_isDigit hs.isDigit
    refine .cons ?_ (.append ?_ hs)
    · rcases he with rfl | rfl <;> decide
    · rcases hsign with rfl | rfl | rfl <;> decide

theorem IsNumber.plain {s : List Char} (h : IsNumber s) : Plain s := by
  obtain ⟨hminus, hint, hfrac, hexp⟩ := h
  refine .append (.append (.append ?_ hint.plain) hfrac.plain) hexp.plain
  rcases hminus with rfl | rfl <;> decide

/-- A hexadecimal digit ends no string and begins no escape. -/
theorem isHex_ne {c : Char} (h : isHex c = true) : c ≠ '\x22' ∧ c ≠ '\x5c' := by
  constructor <;> rintro rfl <;> exact absurd h (by decide)

end JsonGrammar
