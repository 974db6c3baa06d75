import Mathlib.Data.List.DropRight
import ApertureRouter.IpText
import ApertureRouter.Lib.Readers

/-!
# The text of socket addresses

`parse::<SocketAddr>()` of `std::net`: an IPv4 address and a port, or an IPv6 address in brackets,
which may have a scope, and a port.

* `parseSocketAddr_port_isSome`: a host with a port behind it parses if and only if the host is an
  IPv4 address or an IPv6 address in brackets (`isHostLiteral`).
-/

namespace ApertureRouter

open Readers

structure SocketAddr where
  ip : IpAddr
  port : Nat
  scopeId : Nat
  deriving DecidableEq

namespace IpText

/-! ## The reader -/

/-- `read_number` in decimal, with any number of digits. -/
def readDecimal (size : Nat) (s : List Char) : Option (Nat × List Char) :=
  readNumber 10 s.length size true s

/-- `read_port`. -/
def readPort (s : List Char) : Option (Nat × List Char) :=
  (readGivenChar ':' s).bind (readDecimal 65536)

/-- `read_scope_id`. -/
def readScopeId (s : List Char) : Option (Nat × List Char) :=
  (readGivenChar '%' s).bind (readDecimal 4294967296)

/-- The part of `read_socket_addr_v6` before the port: an address with its scope, in brackets. -/
def readBracketed (s : List Char) : Option ((Ipv6Addr × Nat) × List Char) := do
  let (ip, s) ← readIpv6Addr (← readGivenChar '[' s)
  let (scopeId, s) := (readScopeId s).getD (0, s)
  let s ← readGivenChar ']' s
  return ((ip, scopeId), s)

/-- `read_socket_addr_v4`. -/
def readSocketAddrV4 (s : List Char) : Option (SocketAddr × List Char) := do
  let (ip, s) ← readIpv4Addr s
  let (port, s) ← readPort s
  return (⟨.v4 ip, port, 0⟩, s)

/-- `read_socket_addr_v6`. -/
def readSocketAddrV6 (s : List Char) : Option (SocketAddr × List Char) := do
  let ((ip, scopeId), s) ← readBracketed s
  let (port, s) ← readPort s
  return (⟨.v6 ip, port, scopeId⟩, s)

/-- `read_socket_addr`. -/
def readSocketAddr (s : List Char) : Option (SocketAddr × List Char) :=
  (readSocketAddrV4 s).or (readSocketAddrV6 s)

end IpText

/-- `str::parse::<SocketAddr>`. -/
def parseSocketAddr (s : List Char) : Option SocketAddr :=
  match IpText.readSocketAddr s with
  | some (addr, []) => some addr
  | _ => none

/-- A host that a port makes a socket address: an IPv4 address, or an IPv6 address in brackets. -/
def isHostLiteral (host : List Char) : Bool :=
  (IpText.readIpv4Addr host).any (·.2.isEmpty) || (IpText.readBracketed host).any (·.2.isEmpty)

namespace IpText

/-! ## What the readers look at -/

theorem readGivenChar_eq_some {c : Char} {s rest : List Char} :
    readGivenChar c s = some rest ↔ s = c :: rest := by
  cases s with
  | nil => simp [readGivenChar]
  | cons d s =>
    rw [readGivenChar, List.cons.injEq]
    by_cases h : d = c
    · simp [h]
    · simp [h]

section

variable {α : Type} {stop : Char → Prop}

theorem reads_given {c : Char} (hc : ¬stop c) {read : List Char → Option (α × List Char)}
    (h : Reads stop read) : Reads stop fun s => (readGivenChar c s).bind read where
  suffix {s a rest} hread := by
    obtain ⟨s', hs, hr⟩ := Option.bind_eq_some_iff.mp hread
    rw [readGivenChar_eq_some.mp hs]
    exact (h.suffix hr).trans (List.suffix_cons c s')
  append s rest hrest := by
    cases s with
    | nil =>
      cases rest with
      | nil => rfl
      | cons d rest =>
        have hd : d ≠ c := fun e => hc (e ▸ hrest d rfl)
        rw [List.nil_append, show readGivenChar c (d :: rest) = none from if_neg hd]
        rfl
    | cons d s =>
      rw [List.cons_append, readGivenChar, readGivenChar]
      by_cases hd : d = c
      · rw [if_pos hd, if_pos hd]
        exact h.append s hrest
      · rw [if_neg hd, if_neg hd]
        rfl

/-- What stops the digits stops them behind any text. -/
theorem takeWhile_stops {p : Char → Bool} {rest : List Char} (hrest : ∀ c ∈ rest.head?, p c = false)
    (s : List Char) : (s ++ rest).takeWhile p = s.takeWhile p ∧
      (s ++ rest).dropWhile p = s.dropWhile p ++ rest := by
  induction s with
  | nil =>
    cases rest with
    | nil => exact ⟨rfl, rfl⟩
    | cons c rest =>
      have hc := hrest c rfl
      rw [List.nil_append, List.takeWhile_cons_of_neg (by simp [hc]),
        List.dropWhile_cons_of_neg (by simp [hc])]
      exact ⟨rfl, rfl⟩
  | cons c s ih =>
    rw [List.cons_append]
    by_cases hc : p c = true
    · rw [List.takeWhile_cons_of_pos hc, List.dropWhile_cons_of_pos hc,
        List.takeWhile_cons_of_pos hc, List.dropWhile_cons_of_pos hc, ih.1]
      exact ⟨rfl, ih.2⟩
    · rw [List.takeWhile_cons_of_neg hc, List.dropWhile_cons_of_neg hc,
        List.takeWhile_cons_of_neg hc, List.dropWhile_cons_of_neg hc]
      exact ⟨rfl, rfl⟩

/-- `read_number` of a text that goes on: the digits, and with them the number, are the same. -/
theorem readNumber_append {radix maxDigits maxDigits' size : Nat} {allow : Bool} {s rest : List Char}
    (hrest : ∀ c ∈ rest.head?, isDigit radix c = false)
    (hmax : ∀ digits : List Nat, digits.length ≤ s.length →
      (maxDigits' < digits.length ↔ maxDigits < digits.length)) :
    readNumber radix maxDigits' size allow (s ++ rest) =
      (readNumber radix maxDigits size allow s).map fun r => (r.1, r.2 ++ rest) := by
  obtain ⟨htake, hdrop⟩ := takeWhile_stops hrest s
  have hlen := hmax ((s.takeWhile (isDigit radix)).filterMap (toDigit radix))
    (Nat.le_trans (List.length_filterMap_le ..) (List.takeWhile_prefix _).length_le)
  unfold readNumber
  dsimp only
  rw [htake, hdrop]
  simp only [hlen]
  split
  · rfl
  · rename_i hsome
    have hhead : (s ++ rest).head? = s.head? := by
      cases s with
      | nil => exact absurd (.inl rfl) hsome
      | cons c s => rfl
    rw [hhead]
    split
    · rfl
    · split <;> rfl

theorem readNumber_suffix {radix maxDigits size : Nat} {allow : Bool} {s rest : List Char} {n : Nat}
    (h : readNumber radix maxDigits size allow s = some (n, rest)) :
    rest = s.dropWhile (isDigit radix) := by
  unfold readNumber at h
  dsimp only at h
  split at h
  · cases h
  · split at h
    · cases h
    · split at h
      · cases h
      · exact (Prod.mk.inj (Option.some.inj h)).2.symm

theorem reads_readNumber {radix maxDigits size : Nat} {allow : Bool}
    (hstop : ∀ c, stop c → isDigit radix c = false) :
    Reads stop (readNumber radix maxDigits size allow) where
  suffix {s a rest} hread := by
    rw [readNumber_suffix hread]
    exact List.dropWhile_suffix _
  append _ _ hrest := readNumber_append (fun c hc => hstop c (hrest c hc)) fun _ _ => Iff.rfl

theorem reads_readDecimal {size : Nat} (hstop : ∀ c, stop c → isDigit 10 c = false) :
    Reads stop (readDecimal size) where
  suffix {s a rest} hread := by
    rw [readNumber_suffix hread]
    exact List.dropWhile_suffix _
  append s rest hrest := by
    refine readNumber_append (fun c hc => hstop c (hrest c hc)) fun digits hdigits => ?_
    rw [List.length_append]
    omega

/-- A dot and an octet. -/
def readDotOctet (s : List Char) : Option (UInt8 × List Char) := (readGivenChar '.' s).bind readOctet

theorem readIpv4Addr_eq : readIpv4Addr = fun s => (readOctet s).bind fun a =>
    (readDotOctet a.2).bind fun b => (readDotOctet b.2).bind fun c =>
      (readDotOctet c.2).map fun d => (⟨a.1, b.1, c.1, d.1⟩, d.2) := by
  funext s
  unfold readIpv4Addr readDotOctet
  simp only [Option.bind_eq_bind, Option.bind_assoc, Option.map_eq_bind]
  rfl

theorem reads_readIpv4Addr (hstop : ∀ c, stop c → isDigit 10 c = false) (hdot : ¬stop '.') :
    Reads stop readIpv4Addr := by
  have hoctet : Reads stop readOctet := (reads_readNumber hstop).map UInt8.ofNat
  have hdotOctet : Reads stop readDotOctet := reads_given hdot hoctet
  rw [readIpv4Addr_eq]
  exact hoctet.bind (fun a s => (readDotOctet s).bind fun b => (readDotOctet b.2).bind fun c =>
    (readDotOctet c.2).map fun d => (Ipv4Addr.mk a b.1 c.1 d.1, d.2)) fun a =>
    hdotOctet.bind (fun b s => (readDotOctet s).bind fun c =>
      (readDotOctet c.2).map fun d => (Ipv4Addr.mk a b c.1 d.1, d.2)) fun b =>
      hdotOctet.bind (fun c s => (readDotOctet s).map fun d => (Ipv4Addr.mk a b c d.1, d.2))
        fun c => hdotOctet.map (Ipv4Addr.mk a b c)

theorem reads_readSeparator (first : Bool) (hcolon : ¬stop ':')
    {read : List Char → Option (α × List Char)} (h : Reads stop read) :
    Reads stop fun s => (readSeparator first s).bind read := by
  cases first with
  | true => exact h
  | false => exact reads_given hcolon h

/-- `read_groups` as a reader: it always reads something, if only no group. -/
def groupsReader (left : Nat) (first : Bool) (s : List Char) :
    Option ((List UInt16 × Bool) × List Char) :=
  some (((readGroups left first s).1, (readGroups left first s).2.1), (readGroups left first s).2.2)

/-- The two groups of an IPv4 address. -/
def v4Groups (v4 : Ipv4Addr) : List UInt16 :=
  [v4.a.toUInt16 <<< 8 ||| v4.b.toUInt16, v4.c.toUInt16 <<< 8 ||| v4.d.toUInt16]

/-- An IPv4 address at the end of the groups, if there is room for two. -/
def readIpv4Groups (left : Nat) (first : Bool) (s : List Char) :
    Option ((List UInt16 × Bool) × List Char) :=
  (if 0 < left then (readSeparator first s).bind readIpv4Addr else none).map fun r =>
    ((v4Groups r.1, true), r.2)

theorem groupsReader_succ (left : Nat) (first : Bool) :
    groupsReader (left + 1) first = fun s => (readIpv4Groups left first s).or
      ((((readSeparator first s).bind readSegment).bind fun g =>
        (groupsReader left false g.2).map fun r => ((g.1 :: r.1.1, r.1.2), r.2)).or
          (some (([], false), s))) := by
  funext s
  rw [groupsReader, readGroups, readIpv4Groups]
  cases (if 0 < left then (readSeparator first s).bind readIpv4Addr else none) with
  | some r => rfl
  | none =>
    cases (readSeparator first s).bind readSegment with
    | some g => rfl
    | none => rfl

theorem reads_groupsReader (hstop : ∀ c, stop c → isDigit 16 c = false ∧ isDigit 10 c = false)
    (hdot : ¬stop '.') (hcolon : ¬stop ':') (left : Nat) (first : Bool) :
    Reads stop (groupsReader left first) := by
  induction left generalizing first with
  | zero => exact .pure ([], false)
  | succ left ih =>
    have hv4 := reads_readIpv4Addr (fun c hc => (hstop c hc).2) hdot
    have hsegment : Reads stop readSegment :=
      (reads_readNumber fun c hc => (hstop c hc).1).map UInt16.ofNat
    have hgroups : Reads stop (readIpv4Groups left first) := by
      unfold readIpv4Groups
      by_cases hleft : 0 < left
      · simp only [if_pos hleft]
        exact (reads_readSeparator first hcolon hv4).map fun v4 => (v4Groups v4, true)
      · simp only [if_neg hleft]
        exact .none
    rw [groupsReader_succ]
    refine hgroups.or (.or ?_ (.pure ([], false)))
    exact (reads_readSeparator first hcolon hsegment).bind
      (fun g s => (groupsReader left false s).map fun r => ((g :: r.1.1, r.1.2), r.2))
      fun g => (ih false).map fun r => (g :: r.1, r.2)

/-- What `read_ipv6_addr` does after its first groups. -/
def readIpv6Rest (head : List UInt16 × Bool) (s : List Char) : Option (Ipv6Addr × List Char) :=
  if head.1.length = 8 then some (ofGroups head.1, s)
  else if head.2 then none
  else (readGivenChar ':' s).bind fun s => (readGivenChar ':' s).bind fun s =>
    (groupsReader (8 - (head.1.length + 1)) true s).map fun r =>
      (ofGroups (head.1 ++ List.replicate (8 - (head.1.length + r.1.1.length)) 0 ++ r.1.1), r.2)

theorem readIpv6Addr_eq :
    readIpv6Addr = fun s => (groupsReader 8 true s).bind fun r => readIpv6Rest r.1 r.2 := by
  funext s
  unfold readIpv6Addr readIpv6Rest
  rfl

theorem reads_readIpv6Addr (hstop : ∀ c, stop c → isDigit 16 c = false ∧ isDigit 10 c = false)
    (hdot : ¬stop '.') (hcolon : ¬stop ':') : Reads stop readIpv6Addr := by
  rw [readIpv6Addr_eq]
  refine (reads_groupsReader hstop hdot hcolon 8 true).bind readIpv6Rest fun head => ?_
  unfold readIpv6Rest
  by_cases hfull : head.1.length = 8
  · simp only [if_pos hfull]
    exact .pure _
  · simp only [if_neg hfull]
    by_cases hv4 : head.2 = true
    · simp only [if_pos hv4]
      exact .none
    · simp only [if_neg hv4]
      exact reads_given hcolon (reads_given hcolon
        ((reads_groupsReader hstop hdot hcolon _ true).map fun r =>
          ofGroups (head.1 ++ List.replicate (8 - (head.1.length + r.1.length)) 0 ++ r.1)))

end

/-! ## The port -/

/-- The decimal text of a number, and the number that it says. -/
theorem digits_text (n : Nat) : (Nat.toDigits 10 n).all (isDigit 10) = true ∧
    ((Nat.toDigits 10 n).filterMap (toDigit 10)).length ≠ 0 ∧
    ((Nat.toDigits 10 n).filterMap (toDigit 10)).foldl (fun n digit => n * 10 + digit) 0 = n := by
  have hdigit : ∀ d < 10, isDigit 10 (Nat.digitChar d) = true ∧
      toDigit 10 (Nat.digitChar d) = some d := by decide
  induction n using Nat.strongRecOn with
  | ind n ih =>
    rw [Nat.toDigits_eq_if (by decide)]
    split
    · rename_i hlt
      obtain ⟨hchar, hvalue⟩ := hdigit n hlt
      simp [hchar, hvalue]
    · obtain ⟨hall, -, hfold⟩ := ih (n / 10) (by omega)
      obtain ⟨hchar, hvalue⟩ := hdigit (n % 10) (Nat.mod_lt n (by decide))
      have hlast : [Nat.digitChar (n % 10)].filterMap (toDigit 10) = [n % 10] := by
        rw [List.filterMap_cons_some hvalue]
        rfl
      rw [List.all_append, List.filterMap_append, List.foldl_append, List.length_append, hlast,
        hfold, hall]
      refine ⟨by simp [hchar], by simp, ?_⟩
      show n / 10 * 10 + n % 10 = n
      omega

theorem toString_toList (n : Nat) : (toString n).toList = Nat.toDigits 10 n := String.toList_ofList

theorem readPort_text {n : Nat} (h : n < 65536) :
    readPort (':' :: (toString n).toList) = some (n, []) := by
  obtain ⟨hall, hlen, hfold⟩ := digits_text n
  have htake := @takeWhile_append _ _ [] (List.all_eq_true.mp hall) fun c hc => by cases hc
  rw [List.append_nil] at htake
  rw [toString_toList, readPort, readGivenChar, if_pos rfl, Option.bind_some, readDecimal, readNumber]
  rw [htake.1, htake.2, hfold, if_neg, if_neg (by simp), if_neg (Nat.not_le.mpr h)]
  rintro (h | h)
  · exact hlen h
  · exact absurd h (Nat.not_lt.mpr (List.length_filterMap_le ..))

/-- A second colon is not read. -/
theorem readPort_colon {tail port : List Char} {n : Nat}
    (h : readPort (tail ++ ':' :: port) = some (n, [])) : tail = [] := by
  cases tail with
  | nil => rfl
  | cons c tail =>
    obtain ⟨s, hs, hread⟩ := Option.bind_eq_some_iff.mp h
    obtain ⟨-, rfl⟩ := List.cons.inj (readGivenChar_eq_some.mp hs)
    have hdrop := readNumber_suffix hread
    rw [eq_comm, List.dropWhile_eq_nil_iff] at hdrop
    exact absurd (hdrop ':' (by simp)) (by decide)

/-! ## Brackets -/

/-- What stands in the brackets. -/
def readClosed (body : List Char) : Option (Ipv6Addr × Nat) :=
  (readIpv6Addr body).bind fun r =>
    let scope := (readScopeId r.2).getD (0, r.2)
    if scope.2 = [] then some (r.1, scope.1) else none

theorem reads_bracket : Reads (· = ']') readIpv6Addr ∧ Reads (· = ']') readScopeId := by
  have hstop : ∀ c, c = ']' → isDigit 16 c = false ∧ isDigit 10 c = false := by
    rintro c rfl
    decide
  exact ⟨reads_readIpv6Addr hstop (by decide) (by decide),
    reads_given (by decide) (reads_readDecimal fun c hc => (hstop c hc).2)⟩

/-- The first closing bracket ends the address. -/
theorem readBracketed_close {body : List Char} (hbody : ']' ∉ body) (rest : List Char) :
    readBracketed ('[' :: body ++ ']' :: rest) = (readClosed body).map fun v => (v, rest) := by
  obtain ⟨hv6, hscope⟩ := reads_bracket
  have hstops : Stops (· = ']') (']' :: rest) := by
    intro c hc
    exact (Option.some.inj hc).symm
  have hopen : readGivenChar '[' ('[' :: body ++ ']' :: rest) = some (body ++ ']' :: rest) := rfl
  rw [readBracketed, readClosed, hopen]
  simp only [Option.bind_eq_bind, Option.bind_some, hv6.append body hstops]
  cases hread : readIpv6Addr body with
  | none => rfl
  | some r =>
    obtain ⟨ip, s⟩ := r
    have hs : ']' ∉ s := fun h => hbody ((hv6.suffix hread).subset h)
    simp only [Option.map_some, Option.bind_some, hscope.append s hstops]
    cases hid : readScopeId s with
    | none =>
      cases s with
      | nil => rfl
      | cons c s =>
        have hc : c ≠ ']' := fun e => hs (by simp [e])
        simp [readGivenChar, hc]
    | some scope =>
      obtain ⟨id, s'⟩ := scope
      have hs' : ']' ∉ s' := fun h => hs ((hscope.suffix hid).subset h)
      cases s' with
      | nil => rfl
      | cons c s' =>
        have hc : c ≠ ']' := fun e => hs' (by simp [e])
        simp [readGivenChar, hc]

/-- An address in brackets has brackets. -/
theorem readBracketed_eq_some {s rest : List Char} {v : Ipv6Addr × Nat}
    (h : readBracketed s = some (v, rest)) :
    ∃ body, s = '[' :: body ++ ']' :: rest ∧ ']' ∉ body ∧ readClosed body = some v := by
  obtain ⟨hv6, hscope⟩ := reads_bracket
  have hmem : ∃ s', s = '[' :: s' ∧ ']' ∈ s' := by
    simp only [readBracketed, Option.bind_eq_bind] at h
    obtain ⟨s', hopen, h⟩ := Option.bind_eq_some_iff.mp h
    obtain ⟨⟨ip, s₁⟩, hread, h⟩ := Option.bind_eq_some_iff.mp h
    obtain ⟨s₂, hclose, -⟩ := Option.bind_eq_some_iff.mp h
    refine ⟨s', readGivenChar_eq_some.mp hopen, (hv6.suffix hread).subset ?_⟩
    have hclose := readGivenChar_eq_some.mp hclose
    cases hid : readScopeId s₁ with
    | none =>
      rw [hid] at hclose
      have hs : s₁ = ']' :: s₂ := hclose
      rw [hs]
      exact List.mem_cons_self
    | some scope =>
      rw [hid] at hclose
      have hs : scope.2 = ']' :: s₂ := hclose
      refine (hscope.suffix hid).subset ?_
      rw [hs]
      exact List.mem_cons_self
  obtain ⟨s', rfl, hmem⟩ := hmem
  obtain ⟨body, rest', rfl, hbody⟩ := List.eq_append_cons_of_mem hmem
  have hclosed := readBracketed_close hbody rest'
  rw [List.cons_append] at hclosed
  rw [hclosed] at h
  obtain ⟨v', hv, heq⟩ := Option.map_eq_some_iff.mp h
  obtain ⟨rfl, rfl⟩ := Prod.mk.inj heq
  exact ⟨body, rfl, hbody, hv⟩

theorem readIpv4Addr_bracket (s : List Char) : readIpv4Addr ('[' :: s) = none := by
  have h := readIpAddr_bracket s
  unfold readIpAddr at h
  split at h
  · cases h
  · assumption

end IpText

open IpText

theorem isHostLiteral_iff {host : List Char} : isHostLiteral host = true ↔
    (∃ ip, readIpv4Addr host = some (ip, [])) ∨
      ∃ body v, host = '[' :: body ++ [']'] ∧ ']' ∉ body ∧ readClosed body = some v := by
  have hany : ∀ {α : Type} {x : Option (α × List Char)},
      x.any (·.2.isEmpty) = true ↔ ∃ a, x = some (a, []) := by
    intro α x
    cases x with
    | none => simp
    | some r =>
      obtain ⟨a, s⟩ := r
      cases s <;> simp
  rw [isHostLiteral, Bool.or_eq_true, hany, hany]
  refine or_congr Iff.rfl ⟨?_, ?_⟩
  · rintro ⟨v, h⟩
    obtain ⟨body, hhost, hbody, hv⟩ := readBracketed_eq_some h
    exact ⟨body, v, hhost, hbody, hv⟩
  · rintro ⟨body, v, rfl, hbody, hv⟩
    exact ⟨v, by rw [readBracketed_close hbody, hv]; rfl⟩

theorem parseSocketAddr_isSome {s : List Char} : (parseSocketAddr s).isSome = true ↔
    ∃ addr, readSocketAddr s = some (addr, []) := by
  unfold parseSocketAddr
  split
  · rename_i addr h
    exact iff_of_true rfl ⟨addr, h⟩
  · rename_i h
    exact iff_of_false (by simp) fun ⟨addr, hr⟩ => h addr hr

/-- **A host and a port.** -/
theorem parseSocketAddr_port_isSome {port : Nat} (hport : port < 65536) (host : List Char) :
    (parseSocketAddr (host ++ ':' :: (toString port).toList)).isSome = true ↔
      isHostLiteral host = true := by
  have hv4 : Reads (· = ':') readIpv4Addr := reads_readIpv4Addr (by rintro c rfl; decide) (by decide)
  have hstops : Stops (· = ':') (':' :: (toString port).toList) := by
    intro c hc
    exact (Option.some.inj hc).symm
  have hnotMem : ']' ∉ ':' :: (toString port).toList := by
    rw [List.mem_cons, not_or]
    refine ⟨by decide, fun h => ?_⟩
    rw [toString_toList] at h
    exact absurd (List.all_eq_true.mp (digits_text port).1 ']' h) (by decide)
  rw [parseSocketAddr_isSome, isHostLiteral_iff]
  constructor
  · rintro ⟨addr, h⟩
    rcases Option.or_eq_some_iff.mp h with h | ⟨-, h⟩
    · refine .inl ?_
      simp only [readSocketAddrV4, hv4.append host hstops, Option.bind_eq_bind] at h
      obtain ⟨r, hr, h⟩ := Option.bind_eq_some_iff.mp h
      obtain ⟨⟨ip, rest⟩, hip, rfl⟩ := Option.map_eq_some_iff.mp hr
      obtain ⟨⟨n, rest'⟩, hread, h⟩ := Option.bind_eq_some_iff.mp h
      obtain ⟨-, rfl⟩ := Prod.mk.inj (Option.some.inj h)
      have htail : rest = [] := readPort_colon hread
      rw [htail] at hip
      exact ⟨ip, hip⟩
    · refine .inr ?_
      simp only [readSocketAddrV6, Option.bind_eq_bind] at h
      obtain ⟨⟨v, rest⟩, hr, h⟩ := Option.bind_eq_some_iff.mp h
      obtain ⟨⟨n, rest'⟩, hread, h⟩ := Option.bind_eq_some_iff.mp h
      obtain ⟨-, rfl⟩ := Prod.mk.inj (Option.some.inj h)
      obtain ⟨body, heq, hbody, hv⟩ := readBracketed_eq_some hr
      -- The closing bracket is in the host: there is none in the port.
      rcases List.append_eq_append_iff.mp heq with ⟨as, -, has⟩ | ⟨as, hhost, has⟩
      · exact absurd (by rw [has]; simp) hnotMem
      · cases as with
        | nil => cases has
        | cons c as =>
          obtain ⟨rfl, rfl⟩ := List.cons.inj has
          rw [readPort_colon hread] at hhost
          exact ⟨body, v, hhost, hbody, hv⟩
  · rintro (⟨ip, hip⟩ | ⟨body, v, rfl, hbody, hv⟩)
    · refine ⟨⟨.v4 ip, port, 0⟩, Option.or_eq_some_iff.mpr (.inl ?_)⟩
      simp only [readSocketAddrV4, hv4.append host hstops, hip, Option.map_some, List.nil_append,
        Option.bind_eq_bind, Option.bind_some, readPort_text hport]
      rfl
    · refine ⟨⟨.v6 v.1, port, v.2⟩, Option.or_eq_some_iff.mpr (.inr ⟨?_, ?_⟩)⟩
      · simp only [List.cons_append, readSocketAddrV4, readIpv4Addr_bracket, Option.bind_eq_bind,
          Option.bind_none]
      · rw [List.append_assoc, List.singleton_append]
        simp only [readSocketAddrV6, readBracketed_close hbody, hv, Option.map_some,
          Option.bind_eq_bind, Option.bind_some, readPort_text hport]
        rfl

example : isHostLiteral "127.0.0.1".toList = true := by decide +kernel

example : isHostLiteral "[::1%2]".toList = true := by decide +kernel

example : isHostLiteral "localhost".toList = false := by decide +kernel

end ApertureRouter
