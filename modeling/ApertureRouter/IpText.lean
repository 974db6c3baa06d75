import ApertureRouter.Security

/-!
# The text of addresses

`parse::<IpAddr>()` of `std::net`, as its parser reads a text: four decimal numbers without leading
zeros, or up to eight hexadecimal ones of which `::` stands for a run of zeros and the last two may be
written as an IPv4 address. Brackets are no part of an address.
-/

namespace ApertureRouter

namespace IpText

/-- `char::to_digit`. -/
def toDigit (radix : Nat) (c : Char) : Option Nat :=
  let digit :=
    if '0' ≤ c ∧ c ≤ '9' then some (c.toNat - 48)
    else if 'a' ≤ c ∧ c ≤ 'z' then some (c.toNat - 87)
    else if 'A' ≤ c ∧ c ≤ 'Z' then some (c.toNat - 55)
    else none
  digit.filter (· < radix)

def isDigit (radix : Nat) (c : Char) : Bool := (toDigit radix c).isSome

/-- `read_number`: all digits that follow, if there are neither none nor too many. -/
def readNumber (radix maxDigits size : Nat) (allowZeroPrefix : Bool) (s : List Char) :
    Option (Nat × List Char) :=
  let digits := (s.takeWhile (isDigit radix)).filterMap (toDigit radix)
  let result := digits.foldl (fun n digit => n * radix + digit) 0
  if digits.length = 0 ∨ maxDigits < digits.length then none
  else if !allowZeroPrefix && s.head? == some '0' && decide (1 < digits.length) then none
  else if size ≤ result then none
  else some (result, s.dropWhile (isDigit radix))

/-- `read_given_char`. -/
def readGivenChar (c : Char) : List Char → Option (List Char)
  | [] => none
  | d :: s => if d = c then some s else none

def readOctet (s : List Char) : Option (UInt8 × List Char) :=
  (readNumber 10 3 256 false s).map fun r => (UInt8.ofNat r.1, r.2)

/-- `read_ipv4_addr`. -/
def readIpv4Addr (s : List Char) : Option (Ipv4Addr × List Char) := do
  let (a, s) ← readOctet s
  let (b, s) ← readOctet (← readGivenChar '.' s)
  let (c, s) ← readOctet (← readGivenChar '.' s)
  let (d, s) ← readOctet (← readGivenChar '.' s)
  return (⟨a, b, c, d⟩, s)

/-- What follows the separator of two groups. There is none before the first one. -/
def readSeparator (first : Bool) (s : List Char) : Option (List Char) :=
  if first then some s else readGivenChar ':' s

def readSegment (s : List Char) : Option (UInt16 × List Char) :=
  (readNumber 16 4 65536 true s).map fun r => (UInt16.ofNat r.1, r.2)

/-- `read_groups`: up to that many groups, whether an IPv4 address ends them, and the rest. -/
def readGroups : Nat → Bool → List Char → List UInt16 × Bool × List Char
  | 0, _, s => ([], false, s)
  | left + 1, first, s =>
    match if 0 < left then (readSeparator first s).bind readIpv4Addr else none with
    | some (v4, s) =>
      ([v4.a.toUInt16 <<< 8 ||| v4.b.toUInt16, v4.c.toUInt16 <<< 8 ||| v4.d.toUInt16], true, s)
    | none =>
      match (readSeparator first s).bind readSegment with
      | some (group, s) =>
        let (groups, v4, s) := readGroups left false s
        (group :: groups, v4, s)
      | none => ([], false, s)

/-- The address of eight groups. -/
def ofGroups : List UInt16 → Ipv6Addr
  | [s0, s1, s2, s3, s4, s5, s6, s7] => ⟨s0, s1, s2, s3, s4, s5, s6, s7⟩
  | _ => ⟨0, 0, 0, 0, 0, 0, 0, 0⟩

/-- `read_ipv6_addr`. -/
def readIpv6Addr (s : List Char) : Option (Ipv6Addr × List Char) :=
  let (head, headV4, s) := readGroups 8 true s
  if head.length = 8 then some (ofGroups head, s)
  else if headV4 then none
  else do
    let s ← readGivenChar ':' s
    let s ← readGivenChar ':' s
    let (tail, _, s) := readGroups (8 - (head.length + 1)) true s
    return (ofGroups (head ++ List.replicate (8 - (head.length + tail.length)) 0 ++ tail), s)

/-- `read_ip_addr`. -/
def readIpAddr (s : List Char) : Option (IpAddr × List Char) :=
  match readIpv4Addr s with
  | some (v4, s) => some (.v4 v4, s)
  | none => (readIpv6Addr s).map fun r => (.v6 r.1, r.2)

/-! ## Decimal numbers -/

/-- What the number of an octet looks like. -/
theorem octet_text : ∀ n < 256, (toString n).toList.all (isDigit 10) = true ∧
    ((toString n).toList.filterMap (toDigit 10)).length ∈ [1, 2, 3] ∧
    ((toString n).toList.head? = some '0' →
      ((toString n).toList.filterMap (toDigit 10)).length = 1) ∧
    ((toString n).toList.filterMap (toDigit 10)).foldl (fun n digit => n * 10 + digit) 0 = n := by
  decide +kernel

theorem isDigit_range {c : Char} (h : isDigit 10 c = true) : 48 ≤ c.toNat ∧ c.toNat ≤ 57 := by
  unfold isDigit toDigit at h
  have hle : ∀ a b : Char, a ≤ b ↔ a.toNat ≤ b.toNat := fun a b => by
    rw [Char.le_def, UInt32.le_iff_toNat_le]
    rfl
  simp only [hle, Option.isSome_filter, show '0'.toNat = 48 from rfl, show '9'.toNat = 57 from rfl,
    show 'a'.toNat = 97 from rfl, show 'z'.toNat = 122 from rfl, show 'A'.toNat = 65 from rfl,
    show 'Z'.toNat = 90 from rfl] at h
  split at h
  · assumption
  · split at h
    · simp at h
      omega
    · split at h
      · simp at h
        omega
      · simp at h

/-- A text without digits at its front. -/
def StopsDigits (s : List Char) : Prop := ∀ c ∈ s.head?, isDigit 10 c = false

theorem takeWhile_append {p : Char → Bool} {s rest : List Char} (hs : ∀ c ∈ s, p c = true)
    (hrest : ∀ c ∈ rest.head?, p c = false) :
    (s ++ rest).takeWhile p = s ∧ (s ++ rest).dropWhile p = rest := by
  rw [List.takeWhile_append_of_pos hs, List.dropWhile_append_of_pos hs]
  cases rest with
  | nil => exact ⟨List.append_nil s, rfl⟩
  | cons c rest =>
    have hc := hrest c rfl
    rw [List.takeWhile_cons_of_neg (by rw [hc]; decide), List.dropWhile_cons_of_neg
      (by rw [hc]; decide)]
    exact ⟨List.append_nil s, rfl⟩

theorem readOctet_text (b : UInt8) {rest : List Char} (hrest : StopsDigits rest) :
    readOctet ((toString b.toNat).toList ++ rest) = some (b, rest) := by
  obtain ⟨hdigits, hlen, hzero, hvalue⟩ := octet_text b.toNat b.toNat_lt
  obtain ⟨htake, hdrop⟩ := takeWhile_append (List.all_eq_true.mp hdigits) hrest
  have hne : (toString b.toNat).toList ≠ [] := by
    intro hnil
    rw [hnil] at hlen
    revert hlen
    decide
  have hhead : ((toString b.toNat).toList ++ rest).head? = (toString b.toNat).toList.head? := by
    obtain ⟨c, s, hs⟩ := List.exists_cons_of_ne_nil hne
    rw [hs]
    rfl
  unfold readOctet readNumber
  dsimp only
  rw [htake, hdrop, hvalue, hhead, if_neg, if_neg, if_neg (Nat.not_le.mpr b.toNat_lt)]
  · rw [Option.map_some, UInt8.ofNat_toNat]
  · intro h
    simp only [Bool.not_false, Bool.true_and, Bool.and_eq_true, beq_iff_eq, decide_eq_true_eq] at h
    have := hzero h.1
    omega
  · simp only [List.mem_cons, List.not_mem_nil, or_false] at hlen
    omega

theorem text_toList (v4 : Ipv4Addr) :
    v4.text.toList = (toString v4.a.toNat).toList ++ '.' :: ((toString v4.b.toNat).toList ++
      '.' :: ((toString v4.c.toNat).toList ++ '.' :: (toString v4.d.toNat).toList)) := by
  unfold Ipv4Addr.text
  simp only [String.toList_append, show ".".toList = ['.'] from rfl, List.append_assoc,
    List.cons_append, List.nil_append]

/-- The text of an address has digits and dots. -/
theorem text_range (v4 : Ipv4Addr) : ∀ c ∈ v4.text.toList, 46 ≤ c.toNat ∧ c.toNat ≤ 57 := by
  have hoctet : ∀ b : UInt8, ∀ c ∈ (toString b.toNat).toList, 46 ≤ c.toNat ∧ c.toNat ≤ 57 := by
    intro b c hc
    have := isDigit_range (List.all_eq_true.mp (octet_text b.toNat b.toNat_lt).1 c hc)
    omega
  rw [text_toList]
  simp only [List.mem_append, List.mem_cons]
  rintro c (hc | rfl | hc | rfl | hc | rfl | hc)
  · exact hoctet _ _ hc
  · decide
  · exact hoctet _ _ hc
  · decide
  · exact hoctet _ _ hc
  · decide
  · exact hoctet _ _ hc

theorem readIpv4Addr_text (v4 : Ipv4Addr) : readIpv4Addr v4.text.toList = some (v4, []) := by
  have hdot : ∀ s, StopsDigits ('.' :: s) := by
    rintro s c ⟨⟩
    decide
  have hlast : readOctet (toString v4.d.toNat).toList = some (v4.d, []) := by
    rw [← List.append_nil (toString v4.d.toNat).toList]
    exact readOctet_text v4.d fun c hc => by cases hc
  unfold readIpv4Addr
  rw [text_toList]
  simp only [readOctet_text _ (hdot _), hlast, readGivenChar, if_true, Option.bind_eq_bind,
    Option.bind_some]
  rfl

/-- A bracket begins no address. -/
theorem readIpAddr_bracket (s : List Char) : readIpAddr ('[' :: s) = none := by
  have hnumber : ∀ radix maxDigits size allow, isDigit radix '[' = false →
      readNumber radix maxDigits size allow ('[' :: s) = none := by
    intro radix maxDigits size allow hdigit
    unfold readNumber
    rw [List.takeWhile_cons_of_neg (by rw [hdigit]; decide)]
    exact if_pos (.inl rfl)
  have hipv4 : readIpv4Addr ('[' :: s) = none := by
    unfold readIpv4Addr readOctet
    rw [hnumber 10 3 256 false rfl]
    rfl
  have hgroups : readGroups 8 true ('[' :: s) = ([], false, '[' :: s) := by
    unfold readGroups readSegment
    simp only [readSeparator, if_true, Option.bind_some, hipv4, hnumber 16 4 65536 true rfl,
      Option.map_none, ite_self]
  unfold readIpAddr readIpv6Addr
  rw [hipv4, hgroups]
  rfl

end IpText

/-- `str::parse::<IpAddr>`. -/
def parseIpAddr (s : List Char) : Option IpAddr :=
  match IpText.readIpAddr s with
  | some (ip, []) => some ip
  | _ => none

theorem parseIpAddr_text (v4 : Ipv4Addr) : parseIpAddr v4.text.toList = some (.v4 v4) := by
  unfold parseIpAddr IpText.readIpAddr
  rw [IpText.readIpv4Addr_text]

theorem parseIpAddr_bracket (s : List Char) : parseIpAddr ('[' :: s) = none := by
  unfold parseIpAddr
  rw [IpText.readIpAddr_bracket]

example : parseIpAddr "::ffff:10.0.0.1".toList = some (.v6 ⟨0, 0, 0, 0, 0, 0xFFFF, 0x0A00, 1⟩) := by
  decide +kernel

example : parseIpAddr "1:2::7:8".toList = some (.v6 ⟨1, 2, 0, 0, 0, 0, 7, 8⟩) := by decide +kernel

example : parseIpAddr "10.0.0.01".toList = none := by decide +kernel

end ApertureRouter
