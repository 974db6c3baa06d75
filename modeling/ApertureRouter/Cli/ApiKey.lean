import Mathlib.Data.Nat.Digits.Lemmas
import Mathlib.Data.Finset.Card
import ApertureRouter.ConfigFile

/-!
# Generated keys

`generate_api_key` writes two random UUIDs in base 62, and `generate_config` (`src/cli/commands.rs`) puts
the result into a new configuration.

* `length_generateApiKey`: the fixed bits of a UUID make the key long enough.
* `generateApiKey_valid_iff`: `Config::validate` takes the key exactly if the digits that are used have
  enough different values, and this is all that the key decides about a generated configuration.
* `sparseKey_refused`: a key that is refused.
-/

namespace ApertureRouter

/-! ## `generate_api_key` -/

/-- A UUID of version 4: its 128 bits with the version and the variant. -/
structure UuidV4 where
  bits : BitVec 128
  version : bits.extractLsb' 76 4 = 4#4
  variant : bits.extractLsb' 62 2 = 2#2

/-- `u128::from_be_bytes` of the bytes. -/
def UuidV4.num (uuid : UuidV4) : Nat := uuid.bits.toNat

/-- `ALPHABET`. -/
def alphabet : List Char := "abcdefghijklmnopqrstuvwxyzABCDEFGHIJKLMNOPQRSTUVWXYZ0123456789".toList

/-- The character of a digit. -/
def base62Char (rem : Nat) : Char := alphabet.getD rem 'a'

/-- The digits of the loops: the last one comes first. -/
def base62 (num : Nat) : List Char := (Nat.digits 62 num).map base62Char

/-- `generate_api_key`. The second loop stops at 36 characters. -/
def generateApiKey (uuid1 uuid2 : UuidV4) : String :=
  let result := "apr_".toList ++ base62 uuid1.num
  String.ofList (result ++ (base62 uuid2.num).take (36 - result.length))

theorem toList_generateApiKey (uuid1 uuid2 : UuidV4) :
    (generateApiKey uuid1 uuid2).toList = "apr_".toList ++ base62 uuid1.num ++
      (base62 uuid2.num).take (36 - ("apr_".toList ++ base62 uuid1.num).length) :=
  String.toList_ofList

/-! ## `generate_config` -/

/-- The keys of `APERTURE_CLIENT_API_KEYS`. -/
def clientApiKeys (keys : String) : List String :=
  ((keys.toList.splitOn ',').map fun key => String.ofList (Text.trim key)).filter (· ≠ "")

/-- The configuration that `generate_config` saves. A key is generated from `uuids`. -/
def generateConfig (vars : EnvVars) (url : Option String) (uuids : Option (UuidV4 × UuidV4)) :
    Except String Config :=
  match url <|> vars "APERTURE_BASE_URL" with
  | none => .error "Aperture URL required. Use --url or set APERTURE_BASE_URL environment variable"
  | some apertureUrl =>
    let generated := (uuids.map fun uuids => generateApiKey uuids.1 uuids.2).toList
    .ok {
      aperture := {
        baseUrl := apertureUrl
        apiKey := (vars "APERTURE_API_KEY").filter (· ≠ "") }
      security := {
        apiKeys :=
          if generated.isEmpty then ((vars "APERTURE_CLIENT_API_KEYS").map clientApiKeys).getD []
          else generated
        requireAuthInProd := (vars "APERTURE_ALLOW_NO_AUTH").isNone } }

/-! ## The length -/

theorem UuidV4.le_num (uuid : UuidV4) : 2 ^ 78 ≤ uuid.num := by
  have hversion := congrArg BitVec.toNat uuid.version
  simp only [BitVec.extractLsb'_toNat, BitVec.toNat_ofNat, Nat.shiftRight_eq_div_pow] at hversion
  have hnum : uuid.bits.toNat = uuid.num := rfl
  omega

theorem length_base62 (uuid : UuidV4) : 14 ≤ (base62 uuid.num).length := by
  rw [base62, List.length_map]
  have hle : 62 ^ 13 ≤ uuid.num := le_trans (by norm_num) uuid.le_num
  exact (Nat.lt_digits_length_iff (by decide) _).mpr hle

theorem length_generateApiKey (uuid1 uuid2 : UuidV4) :
    32 ≤ (generateApiKey uuid1 uuid2).toList.length := by
  have h1 := length_base62 uuid1
  have h2 := length_base62 uuid2
  have hpre : "apr_".toList.length = 4 := rfl
  rw [toList_generateApiKey, List.length_append, List.length_take, List.length_append, hpre]
  omega

/-- A character has at least one byte. -/
theorem length_le_utf8ByteSize (s : String) : s.toList.length ≤ s.utf8ByteSize := by
  rw [← String.ofList_toList (s := s), String.toList_ofList]
  induction s.toList with
  | nil => exact Nat.zero_le _
  | cons c l ih =>
    rw [← List.singleton_append, String.ofList_append, String.utf8ByteSize_append, List.length_append]
    have hone : 1 ≤ (String.ofList [c]).utf8ByteSize := by
      rw [← String.singleton_eq_ofList, String.utf8ByteSize_singleton]
      exact c.utf8Size_pos
    exact Nat.add_le_add hone ih

/-! ## The characters -/

/-- The values of the digits in a key: those of `a`, `p` and `r`, and the ones that are used of the two
numbers. -/
def keyDigits (uuid1 uuid2 : UuidV4) : Finset Nat :=
  {0, 15, 17} ∪ (Nat.digits 62 uuid1.num ++
    (Nat.digits 62 uuid2.num).take (32 - (Nat.digits 62 uuid1.num).length)).toFinset

theorem keyDigits_lt {uuid1 uuid2 : UuidV4} {d : Nat} (h : d ∈ keyDigits uuid1 uuid2) : d < 62 := by
  simp only [keyDigits, Finset.mem_union, Finset.mem_insert, Finset.mem_singleton, List.mem_toFinset,
    List.mem_append] at h
  rcases h with (rfl | rfl | rfl) | h | h
  · decide
  · decide
  · decide
  · exact Nat.digits_lt_base (by decide) h
  · exact Nat.digits_lt_base (by decide) (List.mem_of_mem_take h)

theorem base62Char_injOn : Set.InjOn base62Char {d | d < 62} := by
  intro d hd e he h
  have hlength : alphabet.length = 62 := by decide
  have hnodup : alphabet.Nodup := by decide +kernel
  have hget : ∀ i, i < 62 → alphabet[i]? = some (base62Char i) := fun i hi => by
    rw [base62Char, List.getD_eq_getElem?_getD, List.getElem?_eq_getElem (hlength ▸ hi),
      Option.getD_some]
  refine (List.getElem?_inj (hlength ▸ hd) hnodup).mp ?_
  rw [hget d hd, hget e he, h]

theorem base62Char_ne {d : Nat} (hd : d < 62) : base62Char d ≠ '_' := by
  revert d
  decide +kernel

theorem toFinset_generateApiKey (uuid1 uuid2 : UuidV4) :
    (generateApiKey uuid1 uuid2).toList.toFinset =
      insert '_' ((keyDigits uuid1 uuid2).image base62Char) := by
  have hpre : "apr_".toList = [base62Char 0, base62Char 15, base62Char 17, '_'] := by
    decide +kernel
  have hroom : 36 - ("apr_".toList ++ base62 uuid1.num).length =
      32 - (Nat.digits 62 uuid1.num).length := by
    rw [List.length_append, base62, List.length_map, hpre, List.length_cons, List.length_cons,
      List.length_cons, List.length_singleton]
    omega
  rw [toList_generateApiKey, hroom, hpre, base62, base62, ← List.map_take, keyDigits]
  ext c
  simp only [List.mem_toFinset, List.mem_append, List.mem_cons, List.not_mem_nil, or_false,
    Finset.mem_insert, Finset.mem_image, Finset.mem_union, Finset.mem_singleton, List.mem_map]
  grind

theorem dedup_generateApiKey (uuid1 uuid2 : UuidV4) :
    (generateApiKey uuid1 uuid2).toList.dedup.length = (keyDigits uuid1 uuid2).card + 1 := by
  have hnew : '_' ∉ (keyDigits uuid1 uuid2).image base62Char := by
    rw [Finset.mem_image]
    rintro ⟨d, hd, hchar⟩
    exact base62Char_ne (keyDigits_lt hd) hchar
  rw [← List.card_toFinset, toFinset_generateApiKey, Finset.card_insert_of_notMem hnew,
    Finset.card_image_of_injOn (base62Char_injOn.mono fun d hd => keyDigits_lt hd)]

/-! ## The check -/

/-- The keys that are refused have few digits. -/
theorem checkKey_generateApiKey (what : String) (uuid1 uuid2 : UuidV4) :
    Config.checkKey what (generateApiKey uuid1 uuid2) = .ok () ↔
      19 ≤ (keyDigits uuid1 uuid2).card := by
  have hlength := length_generateApiKey uuid1 uuid2
  have hbytes := length_le_utf8ByteSize (generateApiKey uuid1 uuid2)
  have hdistinct := dedup_generateApiKey uuid1 uuid2
  simp only [Config.checkKey, Config.bind_ok_iff, Config.refuse_ok_iff, decide_eq_false_iff_not]
  omega

/-- The gateway key in the environment is one that `Config::validate` takes. -/
def GatewayKeyAccepted (vars : EnvVars) : Prop :=
  ∀ key ∈ vars "APERTURE_API_KEY", Config.containsText key "your-api-key-here" = false

/-- A generated configuration is valid if its key, its URL and its gateway key are taken. -/
theorem validate_generateConfig (parse : UrlParser) (debug : Bool) (vars : EnvVars)
    (url : Option String) (uuid1 uuid2 : UuidV4) :
    (generateConfig vars url (some (uuid1, uuid2)) >>= Config.validate parse debug) = .ok () ↔
      (∃ base, (url <|> vars "APERTURE_BASE_URL") = some base ∧ base ≠ "") ∧
        GatewayKeyAccepted vars ∧ 19 ≤ (keyDigits uuid1 uuid2).card := by
  unfold generateConfig
  cases hurl : (url <|> vars "APERTURE_BASE_URL") with
  | none => exact iff_of_false nofun (by rintro ⟨⟨base, h, -⟩, -⟩; cases h)
  | some base =>
    have hplaceholder : generateApiKey uuid1 uuid2 ≠ "your-api-key-here" := by
      intro h
      have hlength := length_generateApiKey uuid1 uuid2
      rw [h] at hlength
      exact absurd hlength (by decide)
    have hgateway : (((vars "APERTURE_API_KEY").filter (· ≠ "")).any fun key =>
        Config.containsText key "your-api-key-here" || key == "") = false ↔
        GatewayKeyAccepted vars := by
      unfold GatewayKeyAccepted
      cases vars "APERTURE_API_KEY" with
      | none => simp
      | some key =>
        by_cases hempty : key = ""
        · subst hempty
          exact iff_of_true (by decide) (by simpa using (by decide))
        · simp [hempty]
    rw [← hgateway, ← checkKey_generateApiKey "API key"]
    change Config.validate parse debug {
      aperture := { baseUrl := base, apiKey := (vars "APERTURE_API_KEY").filter (· ≠ "") }
      security := {
        apiKeys := [generateApiKey uuid1 uuid2]
        requireAuthInProd := (vars "APERTURE_ALLOW_NO_AUTH").isNone } } = .ok () ↔ _
    simp only [Config.validate, Config.checkSettings, Config.bind_ok_iff, Config.refuse_ok_iff,
      Config.checkProviders]
    have hdone : (pure PUnit.unit : Except String PUnit) = .ok () := rfl
    simp [hplaceholder.symm, hdone, Config.bind_ok_iff]

/-- **Generated keys.** `Config::validate` takes the key exactly if the digits have enough different
values; and it takes the configuration exactly if moreover it takes the URL and the gateway key. -/
theorem generateApiKey_valid_iff (parse : UrlParser) (debug : Bool) (vars : EnvVars)
    (url : Option String) (uuid1 uuid2 : UuidV4) :
    (Config.checkKey "API key" (generateApiKey uuid1 uuid2) = .ok () ↔
      19 ≤ (keyDigits uuid1 uuid2).card) ∧
    ((generateConfig vars url (some (uuid1, uuid2)) >>= Config.validate parse debug) = .ok () ↔
      (∃ base, (url <|> vars "APERTURE_BASE_URL") = some base ∧ base ≠ "") ∧
        GatewayKeyAccepted vars ∧ 19 ≤ (keyDigits uuid1 uuid2).card) :=
  ⟨checkKey_generateApiKey _ uuid1 uuid2, validate_generateConfig parse debug vars url uuid1 uuid2⟩

/-- A UUID whose random bits are all zero. -/
def sparseUuid : UuidV4 where
  bits := 0x00000000000040008000000000000000#128
  version := by decide
  variant := by decide

/-- The key of two such UUIDs is refused, and so is the configuration with it. -/
theorem sparseKey_refused :
    Config.checkKey "API key" (generateApiKey sparseUuid sparseUuid) ≠ .ok () ∧
    (generateConfig (fun _ => none) (some "http://localhost:8080") (some (sparseUuid, sparseUuid)) >>=
      Config.validate (fun _ => .error "") false) ≠ .ok () := by
  have hfew : ¬19 ≤ (keyDigits sparseUuid sparseUuid).card := by decide +kernel
  exact ⟨fun h => hfew ((checkKey_generateApiKey _ _ _).mp h),
    fun h => hfew ((validate_generateConfig _ _ _ _ _ _).mp h).2.2⟩

end ApertureRouter
