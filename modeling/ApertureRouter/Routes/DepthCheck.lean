import ApertureRouter.Lib.JsonGrammar
import ApertureRouter.Routes.Streaming

/-!
# The depth check of JSON texts

The scan of `parse_json_with_depth_limit` (`src/routes/streaming.rs`) counts the brackets of a text,
`serde_json` reads it.

* `scans_of_writes`: on a text the scan finds how deeply the text is nested, and no bracket that does
  not match, whatever is in its strings.
* `Value.ofDoc`: what `serde_json` makes of a text. Its map keeps the last member of a key, so the
  value can be less deep than the text (`depth_ofDoc_le`), but only if a key is repeated
  (`depth_ofDoc`).
* `depth_check_exact`: the check is exact for the text.
-/

namespace ApertureRouter

open JsonGrammar

/-! ## The scan -/

/-- The error of a text that is nested too deeply. -/
def depthExceeded : JsonError := .io "JSON depth limit exceeded"

/-- At the depth `k`, the scan finds a text that goes `n` deeper, and comes back to `k`. -/
def Scans (maxDepth k n : Nat) (s : List Char) : Prop :=
  s.foldlM (DepthScan.step maxDepth) ⟨k, false, false⟩ =
    if k + n ≤ maxDepth then .ok ⟨k, false, false⟩ else .error depthExceeded

section

variable {maxDepth k n n' : Nat} {s t : List Char}

theorem Scans.append (hs : Scans maxDepth k n s) (ht : Scans maxDepth k n' t) :
    Scans maxDepth k (max n n') (s ++ t) := by
  unfold Scans at hs ht ⊢
  rw [List.foldlM_append, hs]
  by_cases hn : k + n ≤ maxDepth
  · rw [if_pos hn]
    refine ht.trans (if_congr ?_ rfl rfl)
    omega
  · rw [if_neg hn, if_neg (by omega)]
    rfl

/-- What is passed over is no deeper. -/
theorem Scans.of_eq (hk : k ≤ maxDepth)
    (h : s.foldlM (DepthScan.step maxDepth) ⟨k, false, false⟩ = .ok ⟨k, false, false⟩) :
    Scans maxDepth k 0 s :=
  h.trans (if_pos hk).symm

/-- A text without quotation marks and brackets is passed over. -/
theorem Scans.plain (hk : k ≤ maxDepth) (hs : Plain s) : Scans maxDepth k 0 s := by
  refine .of_eq hk ?_
  induction s with
  | nil => rfl
  | cons c s ih =>
    have hc := hs c List.mem_cons_self
    simp only [List.mem_cons, List.not_mem_nil, or_false, not_or] at hc
    obtain ⟨hquote, hopen, hclose, hopen', hclose'⟩ := hc
    have hstep : DepthScan.step maxDepth ⟨k, false, false⟩ c = .ok ⟨k, false, false⟩ := by
      simp [DepthScan.step, hquote, hopen, hclose, hopen', hclose']
    rw [List.foldlM_cons, hstep]
    exact ih fun c' hc' => hs c' (List.mem_cons_of_mem c hc')

/-- In a string, characters other than quotation marks and backslashes are passed over. -/
theorem foldlM_in_string (h : ∀ c ∈ s, c ≠ '\x22' ∧ c ≠ '\x5c') :
    s.foldlM (DepthScan.step maxDepth) ⟨k, true, false⟩ = .ok ⟨k, true, false⟩ := by
  induction s with
  | nil => rfl
  | cons c s ih =>
    obtain ⟨hquote, hbackslash⟩ := h c List.mem_cons_self
    have hstep : DepthScan.step maxDepth ⟨k, true, false⟩ c = .ok ⟨k, true, false⟩ := by
      simp [DepthScan.step, hquote, hbackslash]
    rw [List.foldlM_cons, hstep]
    exact ih fun c' hc' => h c' (List.mem_cons_of_mem c hc')

/-- In a string, a backslash hides what is behind it. -/
theorem foldlM_escape (c : Char) (s : List Char) :
    ('\x5c' :: c :: s).foldlM (DepthScan.step maxDepth) ⟨k, true, false⟩ =
      s.foldlM (DepthScan.step maxDepth) ⟨k, true, false⟩ := rfl

/-- **Strings.** The scan stays in a string up to its end. -/
theorem foldlM_stringBody (h : StringBody s) :
    s.foldlM (DepthScan.step maxDepth) ⟨k, true, false⟩ = .ok ⟨k, true, false⟩ := by
  induction h with
  | nil => rfl
  | @unescaped c s _ hquote hbackslash _ ih =>
    have hc : [c].foldlM (DepthScan.step maxDepth) ⟨k, true, false⟩ = .ok ⟨k, true, false⟩ :=
      foldlM_in_string (List.forall_mem_singleton.mpr ⟨hquote, hbackslash⟩)
    rw [← List.singleton_append, List.foldlM_append, hc]
    exact ih
  | escape _ _ ih => rw [foldlM_escape, ih]
  | unicode _ hhex _ ih =>
    rw [foldlM_escape, List.foldlM_append, foldlM_in_string fun c hc => isHex_ne (hhex c hc)]
    exact ih

theorem Scans.string (hk : k ≤ maxDepth) (h : StringBody s) :
    Scans maxDepth k 0 ('\x22' :: (s ++ ['\x22'])) := by
  have hopen : DepthScan.step maxDepth ⟨k, false, false⟩ '\x22' = .ok ⟨k, true, false⟩ := rfl
  refine .of_eq hk ?_
  rw [List.foldlM_cons, hopen]
  show (s ++ ['\x22']).foldlM (DepthScan.step maxDepth) ⟨k, true, false⟩ = _
  rw [List.foldlM_append, foldlM_stringBody h]
  rfl

/-- **Brackets.** The text between them is one level deeper. -/
theorem Scans.bracketed {opening closing : Char}
    (hpair : (opening, closing) ∈ [('[', ']'), ('\x7b', '\x7d')])
    (h : k + 1 ≤ maxDepth → Scans maxDepth (k + 1) n s) :
    Scans maxDepth k (n + 1) (opening :: (s ++ [closing])) := by
  have hopen : DepthScan.step maxDepth ⟨k, false, false⟩ opening =
      if maxDepth < k + 1 then .error depthExceeded else .ok ⟨k + 1, false, false⟩ := by
    rcases List.mem_pair.mp hpair with hp | hp <;> cases hp <;> rfl
  have hclose : DepthScan.step maxDepth ⟨k + 1, false, false⟩ closing = .ok ⟨k, false, false⟩ := by
    rcases List.mem_pair.mp hpair with hp | hp <;> cases hp <;> rfl
  unfold Scans at h ⊢
  rw [List.foldlM_cons, hopen]
  by_cases hk : k + 1 ≤ maxDepth
  · rw [if_neg (Nat.not_lt.mpr hk)]
    show (s ++ [closing]).foldlM (DepthScan.step maxDepth) ⟨k + 1, false, false⟩ = _
    rw [List.foldlM_append, h hk]
    by_cases hn : k + 1 + n ≤ maxDepth
    · rw [if_pos hn, if_pos (by omega)]
      show [closing].foldlM (DepthScan.step maxDepth) ⟨k + 1, false, false⟩ = _
      rw [List.foldlM_cons, hclose]
      rfl
    · rw [if_neg hn, if_neg (by omega)]
      rfl
  · rw [if_pos (Nat.lt_of_not_le hk), if_neg (by omega)]
    rfl

/-- A comma between two texts. -/
theorem Scans.comma (hk : k ≤ maxDepth) (hs : Scans maxDepth k n s) (ht : Scans maxDepth k n' t) :
    Scans maxDepth k (max n n') (s ++ ',' :: t) := by
  have hplain : Plain [','] := by decide
  have hcomma : Scans maxDepth k (max 0 n') (',' :: t) := (Scans.plain hk hplain).append ht
  rw [Nat.zero_max] at hcomma
  exact hs.append hcomma

end

/-- **The scan of a text.** By induction on how the text is written: at each depth that the limit
allows, the scan goes as deep as the part is nested. -/
theorem scans_of_writes {p : Part} {s : List Char} (h : Writes p s) {maxDepth k : Nat}
    (hk : k ≤ maxDepth) : Scans maxDepth k p.depth s := by
  induction h generalizing k with
  | null => exact .plain hk (by decide)
  | true => exact .plain hk (by decide)
  | false => exact .plain hk (by decide)
  | number h => exact .plain hk h.plain
  | string h => exact .string hk h
  | emptyArray hw => exact .bracketed (by decide) fun hk' => .plain hk' hw.plain
  | array _ ih => exact .bracketed (by decide) fun hk' => ih hk'
  | emptyObject hw => exact .bracketed (by decide) fun hk' => .plain hk' hw.plain
  | object _ ih => exact .bracketed (by decide) fun hk' => ih hk'
  | padded hw _ hw' ih =>
    have hscan := (Scans.plain hk hw.plain).append ((ih hk).append (.plain hk hw'.plain))
    rw [Nat.zero_max, Nat.max_zero] at hscan
    exact hscan
  | lastElement _ ih =>
    rw [Part.depth, elementsDepth, elementsDepth, Nat.max_zero]
    exact ih hk
  | element _ _ ih ihs => exact (ih hk).comma hk (ihs hk)
  | member hw hkey hw' _ ih =>
    have hcolon := (Scans.plain hk (Plain.append hw'.plain (show Plain [':'] by decide))).append (ih hk)
    have hscan := (Scans.plain hk hw.plain).append ((Scans.string hk hkey).append hcolon)
    simp only [Nat.zero_max, List.append_assoc, List.singleton_append] at hscan
    exact hscan
  | lastMember _ ih =>
    rw [Part.depth, membersDepth, membersDepth, Nat.max_zero]
    exact ih hk
  | members _ _ ih ihs => exact (ih hk).comma hk (ihs hk)

/-! ## The value of a text -/

/-- How numbers and the characters of strings are read. -/
structure Reading where
  number : List Char → Number
  string : List Char → String

namespace Value

mutual

/-- How deeply arrays and objects are nested. -/
def depth : Value → Nat
  | null | bool _ | number _ | string _ => 0
  | array a => itemsDepth a + 1
  | object m => fieldsDepth m + 1

def itemsDepth : List Value → Nat
  | [] => 0
  | v :: a => max v.depth (itemsDepth a)

def fieldsDepth : List (String × Value) → Nat
  | [] => 0
  | (_, v) :: m => max v.depth (fieldsDepth m)

end

mutual

/-- The value of a text. -/
def ofDoc (r : Reading) : Doc → Value
  | .null => null
  | .bool b => bool b
  | .number s => number (r.number s)
  | .string s => string (r.string s)
  | .array ds => array (ofElements r ds)
  | .object ms => object (ofMembers r [] ms)

def ofElements (r : Reading) : List Doc → List Value
  | [] => []
  | d :: ds => ofDoc r d :: ofElements r ds

/-- The members of an object are inserted into its map, one after the other. -/
def ofMembers (r : Reading) (m : List (String × Value)) :
    List (List Char × Doc) → List (String × Value)
  | [] => m
  | (key, d) :: ms => ofMembers r (setField (r.string key) (ofDoc r d) m) ms

end

mutual

/-- No object of the text repeats a key. -/
def DistinctKeys (r : Reading) : Doc → Prop
  | .null | .bool _ | .number _ | .string _ => True
  | .array ds => ElementsDistinct r ds
  | .object ms => (ms.map fun e => r.string e.1).Nodup ∧ MembersDistinct r ms

def ElementsDistinct (r : Reading) : List Doc → Prop
  | [] => True
  | d :: ds => DistinctKeys r d ∧ ElementsDistinct r ds

def MembersDistinct (r : Reading) : List (List Char × Doc) → Prop
  | [] => True
  | (_, d) :: ms => DistinctKeys r d ∧ MembersDistinct r ms

end

/-- A field that is set replaces the one with its key. -/
theorem fieldsDepth_setField_le (key : String) (v : Value) (m : List (String × Value)) :
    fieldsDepth (setField key v m) ≤ max (fieldsDepth m) v.depth := by
  induction m with
  | nil => simp [setField, fieldsDepth]
  | cons e m ih =>
    obtain ⟨k, w⟩ := e
    rw [setField]
    split
    · simp only [fieldsDepth]
      omega
    · simp only [fieldsDepth]
      omega

/-- A field with a new key. -/
theorem setField_eq_append {key : String} {m : List (String × Value)} (v : Value)
    (h : key ∉ m.map Prod.fst) : setField key v m = m ++ [(key, v)] := by
  induction m with
  | nil => rfl
  | cons e m ih =>
    obtain ⟨hne, hm⟩ := not_or.mp (mt List.mem_cons.mpr h)
    rw [setField, if_neg (Ne.symm hne), ih hm]
    rfl

theorem fieldsDepth_append (m m' : List (String × Value)) :
    fieldsDepth (m ++ m') = max (fieldsDepth m) (fieldsDepth m') := by
  induction m with
  | nil => exact (Nat.zero_max _).symm
  | cons e m ih => rw [List.cons_append, fieldsDepth, fieldsDepth, ih, Nat.max_assoc]

mutual

/-- The value of a text is no deeper than the text. -/
theorem depth_ofDoc_le (r : Reading) : ∀ d : Doc, (ofDoc r d).depth ≤ d.depth
  | .null | .bool _ | .number _ | .string _ => Nat.le_refl 0
  | .array ds => Nat.succ_le_succ (itemsDepth_ofElements_le r ds)
  | .object ms => by
    have hms := fieldsDepth_ofMembers_le r [] ms
    rw [fieldsDepth, Nat.zero_max] at hms
    exact Nat.succ_le_succ hms

theorem itemsDepth_ofElements_le (r : Reading) :
    ∀ ds : List Doc, itemsDepth (ofElements r ds) ≤ elementsDepth ds
  | [] => Nat.le_refl 0
  | d :: ds => by
    have hd := depth_ofDoc_le r d
    have hds := itemsDepth_ofElements_le r ds
    rw [ofElements, itemsDepth, elementsDepth]
    omega

theorem fieldsDepth_ofMembers_le (r : Reading) (m : List (String × Value)) :
    ∀ ms : List (List Char × Doc),
      fieldsDepth (ofMembers r m ms) ≤ max (fieldsDepth m) (membersDepth ms)
  | [] => Nat.le_max_left ..
  | (key, d) :: ms => by
    have hd := depth_ofDoc_le r d
    have hset := fieldsDepth_setField_le (r.string key) (ofDoc r d) m
    have hms := fieldsDepth_ofMembers_le r (setField (r.string key) (ofDoc r d) m) ms
    rw [ofMembers, membersDepth]
    omega

end

mutual

/-- Without a repeated key, it is as deep. -/
theorem depth_ofDoc (r : Reading) : ∀ d : Doc, DistinctKeys r d → (ofDoc r d).depth = d.depth
  | .null, _ | .bool _, _ | .number _, _ | .string _, _ => rfl
  | .array ds, h => congrArg (· + 1) (itemsDepth_ofElements r ds h)
  | .object ms, h => by
    have hms := fieldsDepth_ofMembers r [] ms (by simpa using h.1) h.2
    rw [fieldsDepth, Nat.zero_max] at hms
    exact congrArg (· + 1) hms

theorem itemsDepth_ofElements (r : Reading) :
    ∀ ds : List Doc, ElementsDistinct r ds → itemsDepth (ofElements r ds) = elementsDepth ds
  | [], _ => rfl
  | d :: ds, h => by
    rw [ofElements, itemsDepth, elementsDepth, depth_ofDoc r d h.1, itemsDepth_ofElements r ds h.2]

theorem fieldsDepth_ofMembers (r : Reading) (m : List (String × Value)) :
    ∀ ms : List (List Char × Doc),
      (m.map Prod.fst ++ ms.map fun e => r.string e.1).Nodup → MembersDistinct r ms →
        fieldsDepth (ofMembers r m ms) = max (fieldsDepth m) (membersDepth ms)
  | [], _, _ => (Nat.max_zero _).symm
  | (key, d) :: ms, hkeys, h => by
    have hnew : r.string key ∉ m.map Prod.fst := fun hmem =>
      (List.nodup_append.mp hkeys).2.2 _ hmem _ List.mem_cons_self rfl
    have hkeys' : ((m ++ [(r.string key, ofDoc r d)]).map Prod.fst ++
        ms.map fun e => r.string e.1).Nodup := by
      simpa using hkeys
    rw [ofMembers, setField_eq_append _ hnew,
      fieldsDepth_ofMembers r (m ++ [(r.string key, ofDoc r d)]) ms hkeys' h.2, fieldsDepth_append,
      membersDepth, fieldsDepth, fieldsDepth, Nat.max_zero, depth_ofDoc r d h.1, Nat.max_assoc]

end

end Value

/-! ## The check -/

/-- A text that is not nested too deeply is left to `serde_json`. -/
theorem parseJsonWithDepthLimit_of_writes (serde : Serde) {d : Doc} {text : List Char}
    (h : Writes (.padded d) text) (maxDepth : Nat) :
    parseJsonWithDepthLimit serde text maxDepth =
      if maxDepth < d.depth then .error depthExceeded
      else (serde.fromStr (String.ofList text)).elim (.error .parse) .ok := by
  have hscan : Scans maxDepth 0 d.depth text := scans_of_writes h (Nat.zero_le maxDepth)
  unfold Scans at hscan
  unfold parseJsonWithDepthLimit
  rw [hscan, Nat.zero_add]
  by_cases hd : d.depth ≤ maxDepth
  · rw [if_pos hd, if_neg (Nat.not_lt.mpr hd)]
    cases serde.fromStr (String.ofList text) <;> rfl
  · rw [if_neg hd, if_pos (Nat.lt_of_not_le hd)]

theorem parseJsonWithDepthLimit_eq_depthExceeded_iff (serde : Serde) {d : Doc} {text : List Char}
    (h : Writes (.padded d) text) (maxDepth : Nat) :
    parseJsonWithDepthLimit serde text maxDepth = .error depthExceeded ↔ maxDepth < d.depth := by
  rw [parseJsonWithDepthLimit_of_writes serde h]
  by_cases hd : maxDepth < d.depth
  · rw [if_pos hd]
    exact iff_of_true rfl hd
  · rw [if_neg hd]
    refine iff_of_false ?_ hd
    cases serde.fromStr (String.ofList text) <;> exact fun h => by cases h

/-- On every JSON text, the check fails exactly if the text is nested too deeply, and it never finds
a bracket that does not match. So it fails if the value is nested too deeply, and without a repeated
key it fails exactly then. -/
theorem depth_check_exact (serde : Serde) (r : Reading) {d : Doc} {text : List Char}
    (h : Writes (.padded d) text) (maxDepth : Nat) :
    (parseJsonWithDepthLimit serde text maxDepth = .error (.io "JSON depth limit exceeded") ↔
      maxDepth < d.depth) ∧
    parseJsonWithDepthLimit serde text maxDepth ≠ .error (.io "Unmatched closing bracket") ∧
    (maxDepth < (Value.ofDoc r d).depth →
      parseJsonWithDepthLimit serde text maxDepth = .error (.io "JSON depth limit exceeded")) ∧
    (Value.DistinctKeys r d →
      (parseJsonWithDepthLimit serde text maxDepth = .error (.io "JSON depth limit exceeded") ↔
        maxDepth < (Value.ofDoc r d).depth)) := by
  have hiff := parseJsonWithDepthLimit_eq_depthExceeded_iff serde h maxDepth
  refine ⟨hiff, ?_, fun hd => ?_, fun hkeys => ?_⟩
  · rw [parseJsonWithDepthLimit_of_writes serde h]
    split
    · exact fun e => absurd (JsonError.io.inj (Except.error.inj e)) (by decide)
    · cases serde.fromStr (String.ofList text) <;> exact fun e => by cases e
  · exact hiff.mpr (Nat.lt_of_lt_of_le hd (Value.depth_ofDoc_le r d))
  · rw [Value.depth_ofDoc r d hkeys]
    exact hiff

/-- Reads the number 0, and strings that escape nothing but quotation marks. -/
def sampleReading : Reading where
  number _ := .posInt 0
  string s := String.ofList (s.filter (· ≠ '\x5c'))

/-- `serde_json` on one text. -/
def serdeOf (text : List Char) (d : Doc) : Serde :=
  tableSerde [(String.ofList text, .ofDoc sampleReading d)]

/-- An object whose key has an escaped quotation mark and a bracket. -/
def bracketKeyDoc : Doc := .object [(['\x5c', '\x22', ']'], .array [.number ['0']])]

def bracketKeyText : List Char := "\x7b\"\\\"]\": [0]\x7d".toList

theorem writes_bracketKey : Writes (.padded bracketKeyDoc) bracketKeyText := by
  have hkey : StringBody ['\x5c', '\x22', ']'] :=
    .escape (by decide) (.unescaped (by decide) (by decide) (by decide) .nil)
  have hzero : Writes (.padded (.number ['0'])) ['0'] := .bare (.number IsInt.zero.isNumber)
  have harray : Writes (.padded (.array [.number ['0']])) [' ', '[', '0', ']'] :=
    .spaced (show Ws [' '] by decide) (.array (.lastElement hzero))
  have hnone : Ws [] := by decide
  exact .bare (.object (.lastMember (.member hnone hkey hnone harray)))

theorem depth_check_exact_bracketKey :
    (parseJsonWithDepthLimit (serdeOf bracketKeyText bracketKeyDoc) bracketKeyText 1 =
        .error (.io "JSON depth limit exceeded") ↔ 1 < bracketKeyDoc.depth) ∧
    parseJsonWithDepthLimit (serdeOf bracketKeyText bracketKeyDoc) bracketKeyText 1 ≠
      .error (.io "Unmatched closing bracket") ∧
    (1 < (Value.ofDoc sampleReading bracketKeyDoc).depth →
      parseJsonWithDepthLimit (serdeOf bracketKeyText bracketKeyDoc) bracketKeyText 1 =
        .error (.io "JSON depth limit exceeded")) ∧
    (Value.DistinctKeys sampleReading bracketKeyDoc →
      (parseJsonWithDepthLimit (serdeOf bracketKeyText bracketKeyDoc) bracketKeyText 1 =
          .error (.io "JSON depth limit exceeded") ↔
        1 < (Value.ofDoc sampleReading bracketKeyDoc).depth)) :=
  depth_check_exact (serdeOf bracketKeyText bracketKeyDoc) sampleReading writes_bracketKey 1

/-- The key `a` twice: first an array, then the number 0. -/
def repeatedKeyDoc : Doc := .object [(['a'], .array []), (['a'], .number ['0'])]

def repeatedKeyText : List Char := "\x7b\"a\":[],\"a\":0\x7d".toList

theorem writes_repeatedKey : Writes (.padded repeatedKeyDoc) repeatedKeyText := by
  have hkey : StringBody ['a'] := .unescaped (by decide) (by decide) (by decide) .nil
  have hnone : Ws [] := by decide
  have harray : Writes (.padded (.array [])) ['[', ']'] := .bare (.emptyArray hnone)
  have hzero : Writes (.padded (.number ['0'])) ['0'] := .bare (.number IsInt.zero.isNumber)
  exact .bare (.object (.members (.member hnone hkey hnone harray)
    (.lastMember (.member hnone hkey hnone hzero))))

/-- The array is gone from the value, but its brackets are in the text. -/
theorem repeatedKey_depth :
    Writes (.padded repeatedKeyDoc) repeatedKeyText ∧
      (serdeOf repeatedKeyText repeatedKeyDoc).fromStr (String.ofList repeatedKeyText) =
        some (.ofDoc sampleReading repeatedKeyDoc) ∧
      (Value.ofDoc sampleReading repeatedKeyDoc).depth = 1 ∧
      parseJsonWithDepthLimit (serdeOf repeatedKeyText repeatedKeyDoc) repeatedKeyText 1 =
        .error (.io "JSON depth limit exceeded") ∧
      ¬(parseJsonWithDepthLimit (serdeOf repeatedKeyText repeatedKeyDoc) repeatedKeyText 1 =
          .error (.io "JSON depth limit exceeded") ↔
        1 < (Value.ofDoc sampleReading repeatedKeyDoc).depth) := by
  have hread : (serdeOf repeatedKeyText repeatedKeyDoc).fromStr (String.ofList repeatedKeyText) =
      some (.ofDoc sampleReading repeatedKeyDoc) := by
    simp [serdeOf, tableSerde]
  have hdepth : (Value.ofDoc sampleReading repeatedKeyDoc).depth = 1 := by decide
  have herror := (parseJsonWithDepthLimit_eq_depthExceeded_iff
    (serdeOf repeatedKeyText repeatedKeyDoc) writes_repeatedKey 1).mpr (by decide)
  refine ⟨writes_repeatedKey, hread, hdepth, herror, fun h => ?_⟩
  have hlt := h.mp herror
  rw [hdepth] at hlt
  exact Nat.lt_irrefl 1 hlt

end ApertureRouter
