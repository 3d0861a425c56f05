/-
  The harvest of the tokens.

  `harvest_all` does to the strings of `Tokens` what the state of the account expects of it
  (`harvestAll_refines`), and a request is made only when the one before it gave a token.  Against a
  service that answers with such tokens it gets them: a response may have a byte order mark, a guard
  and trailing bytes around its object, and the service reads the body of the second request as the
  object that is meant.
-/
import WrapperPaas.Tokens.Equiv.MusicToken
import WrapperPaas.Tokens.Equiv.Response

namespace WrapperPaas

namespace Harvest

open Json AppleResponse

/-! ### Requests -/

def devTokenRequest : HttpMessage := { devTokenMessage with params := devTokenParams }

def musicTokenRequest (guid devToken : Bytes) (nowMs : Int) : HttpMessage :=
  { musicTokenMessage with body := some (musicTokenBody guid devToken nowMs) }

/-- The body of the answer, empty if there is none. -/
def Apple.body (apple : Apple) (msg : HttpMessage) : Bytes :=
  match apple.run msg with
  | .bytes b => cString b
  | _ => []

def UrlRequestResult.text (r : UrlRequestResult) : Bytes := if r.ok then r.body else []

section Requests

variable (nl : Nlohmann) (apple : Apple) (sent : List HttpMessage)

/-- The token in a body, empty if there is none. -/
def tokenIn (body : Bytes) (key : String) : Option String :=
  if body = [] then some "" else stringInResponse nl body key

theorem run_runRequest (msg : HttpMessage) (params : List (String × String)) : ∃ r,
    (runRequest apple msg params).run sent = some (r, sent ++ [{ msg with params }]) ∧
      r.text = apple.body { msg with params } := by
  unfold runRequest Apple.body
  simp only [StateT.run_bind]
  cases apple.run { msg with params } with
  | notAllocated => exact ⟨_, rfl, rfl⟩
  | error code what => exact ⟨_, rfl, rfl⟩
  | noResponse => exact ⟨_, rfl, rfl⟩
  | noUnderlyingResponse => exact ⟨_, rfl, rfl⟩
  | noData => exact ⟨_, rfl, rfl⟩
  | noBytes => exact ⟨_, rfl, rfl⟩
  | bytes b => exact ⟨_, rfl, rfl⟩

/-- A token that is read from a body if the body is not empty. -/
theorem run_tokenIn {c : Prop} [Decidable c] {body : Bytes} (hc : c ↔ body = []) (key : String) :
    StateT.run (if c then pure "" else liftM (stringInResponse nl body key) : Requests String)
      sent = (tokenIn nl body key).map (·, sent) := by
  unfold tokenIn
  by_cases hbody : body = []
  · rw [if_pos (hc.mpr hbody), if_pos hbody]
    rfl
  · rw [if_neg fun h => hbody (hc.mp h), if_neg hbody]
    cases stringInResponse nl body key with
    | none => rfl
    | some token => rfl

theorem run_harvestDevToken : (harvestDevToken nl apple).run sent =
    (tokenIn nl (apple.body devTokenRequest) "token").map (·, sent ++ [devTokenRequest]) := by
  obtain ⟨r, hr, htext⟩ := run_runRequest apple sent devTokenMessage devTokenParams
  unfold harvestDevToken devTokenRequest
  rw [StateT.run_bind, hr, ← htext]
  show StateT.run (if _ then _ else _) _ = _
  unfold UrlRequestResult.text
  by_cases hok : r.ok = true
  · rw [if_pos hok]
    exact run_tokenIn nl _ (by simp [hok]) "token"
  · rw [if_neg hok, if_pos (.inl (by simpa using hok))]
    rfl

theorem musicTokenBody_ne_nil (guid devToken : Bytes) (nowMs : Int) :
    musicTokenBody guid devToken nowMs ≠ [] := by
  intro h
  simp only [musicTokenBody, List.append_eq_nil_iff] at h
  exact absurd h.2 (by decide)

theorem run_postJson (msg : HttpMessage) {bodyJson : Bytes} (hbody : bodyJson ≠ []) :
    (postJson apple msg bodyJson).run sent =
      some (apple.body { msg with body := some bodyJson, params := [] },
        sent ++ [{ msg with body := some bodyJson, params := [] }]) := by
  obtain ⟨r, hr, htext⟩ := run_runRequest apple sent { msg with body := some bodyJson } []
  unfold postJson
  rw [if_pos hbody]
  dsimp only
  rw [StateT.run_bind, hr, ← htext]
  unfold UrlRequestResult.text
  by_cases hok : r.ok = true
  · simp [hok]
  · simp [hok]

theorem run_harvestMusicUserToken (guid devToken : Bytes) (nowMs : Int) :
    (harvestMusicUserToken nl apple guid devToken nowMs).run sent =
      (tokenIn nl (apple.body (musicTokenRequest guid devToken nowMs)) "music_token").map
        (·, sent ++ [musicTokenRequest guid devToken nowMs]) := by
  have hpost := run_postJson apple sent musicTokenMessage
    (musicTokenBody_ne_nil guid devToken nowMs)
  unfold harvestMusicUserToken
  rw [StateT.run_bind, hpost]
  exact run_tokenIn nl _ Iff.rfl "music_token"

end Requests

/-! ### Bodies -/

/-- The depth does not overflow on a text that is short enough. -/
theorem scan_isSome {b : Bytes} {st : Scan} (h : st.depth + b.length ≤ intMax) (j : Nat) :
    ∃ n, scan st j b = some n := by
  induction b generalizing st j with
  | nil => exact ⟨0, rfl⟩
  | cons c b ih =>
    rw [List.length_cons] at h
    have hkeep : ∀ {st' : Scan}, st'.depth ≤ st.depth + 1 → ∃ n, scan st' (j + 1) b = some n :=
      fun hst => ih (by omega) (j + 1)
    unfold scan
    split_ifs
    · exact hkeep (Nat.le_succ _)
    · exact hkeep (Nat.le_succ _)
    · exact hkeep (Nat.le_succ _)
    · exact hkeep (Nat.le_succ _)
    · exact hkeep (Nat.le_succ _)
    · exact hkeep (Nat.le_refl _)
    · omega
    · exact ⟨_, rfl⟩
    · exact hkeep (Nat.le_trans (Nat.sub_le _ _) (Nat.le_succ _))
    · exact hkeep (Nat.le_succ _)

/-- Normalisation takes something off the front. -/
theorem normalizeAppleJsonBody_suffix (raw : Bytes) : normalizeAppleJsonBody raw <:+ raw := by
  have hbom : (if utf8Bom.isPrefixOf raw then raw.drop 3 else raw) <:+ raw := by
    split_ifs
    · exact List.drop_suffix _ _
    · exact List.suffix_refl _
  unfold normalizeAppleJsonBody
  generalize (if utf8Bom.isPrefixOf raw then raw.drop 3 else raw) = s at hbom ⊢
  dsimp only
  split_ifs
  · split
    · exact (List.drop_suffix _ _).trans hbom
    · exact (List.drop_suffix _ _).trans hbom
  · exact hbom

/-- Reading a token from a short body is defined. -/
theorem exists_tokenIn (nl : Nlohmann) {body : Bytes} (h : body.length < 2 ^ 31) (key : String) :
    ∃ token, tokenIn nl body key = some token := by
  unfold tokenIn
  split_ifs
  · exact ⟨"", rfl⟩
  · have hlen := (normalizeAppleJsonBody_suffix body).length_le
    have hfirst : ∃ obj, firstJsonObject (normalizeAppleJsonBody body) = some obj := by
      unfold firstJsonObject
      split
      · exact ⟨[], rfl⟩
      · rename_i start _
        have hdrop := (List.drop_suffix start (normalizeAppleJsonBody body)).length_le
        have hdepth : ({} : Scan).depth + ((normalizeAppleJsonBody body).drop start).length ≤
            intMax := by
          show 0 + _ ≤ 2 ^ 31 - 1
          omega
        obtain ⟨n, hn⟩ := scan_isSome hdepth 0
        rw [hn]
        exact ⟨_, rfl⟩
    obtain ⟨obj, hobj⟩ := hfirst
    unfold stringInResponse parseAppleResponseJson
    rw [hobj]
    exact ⟨_, rfl⟩

/-! ### Refinement -/

/-- A library whose identifiers are texts, and whose bodies are shorter than 2 GiB. -/
structure TextualApple extends Apple where
  storefront : String
  storefront_eq : readStdString storeFrontIdentifier = some (utf8 storefront)
  guidText : String
  guid_eq : deviceGuidString toApple = utf8 guidText
  small : ∀ msg, (toApple.body msg).length < 2 ^ 31

/-- The fields of `Tokens`. -/
def Harvested.of (t : Tokens) : Harvested :=
  ⟨utf8 t.storefront, t.devToken, t.musicUserToken, t.dsid⟩

/-- What the library answers, as the account sees it. -/
def TextualApple.reply (nl : Nlohmann) (a : TextualApple) (nowMs : Int) : HarvestReply :=
  let devToken := (tokenIn nl (a.body devTokenRequest) "token").getD ""
  { storefront := a.storefront
    devToken
    guid := a.guidText
    musicUserToken := (tokenIn nl
      (a.body (musicTokenRequest (utf8 a.guidText) (utf8 devToken) nowMs)) "music_token").getD ""
    dsid := extractDsidFromJwt nl (utf8 devToken) }

/-- The requests that are made for such an answer. -/
def requestsFor (r : HarvestReply) (nowMs : Int) : List HttpMessage :=
  if r.storefront = "" then []
  else if r.devToken = "" ∨ r.guid = "" then [devTokenRequest]
  else [devTokenRequest, musicTokenRequest (utf8 r.guid) (utf8 r.devToken) nowMs]

theorem utf8_eq_nil {s : String} : utf8 s = [] ↔ s = "" :=
  ⟨fun h => utf8_injective h, fun h => h ▸ rfl⟩

theorem harvestAll_refines (nl : Nlohmann) (a : TextualApple) (nowMs : Int) (t : Tokens) :
    (harvestAll nl a.toApple nowMs (.of t)).run [] =
      some (Prod.map id Harvested.of (WrapperPaas.harvestAll (a.reply nl nowMs) t),
        requestsFor (a.reply nl nowMs) nowMs) := by
  obtain ⟨devToken, hdev⟩ := exists_tokenIn nl (a.small devTokenRequest) "token"
  obtain ⟨musicToken, hmusic⟩ := exists_tokenIn nl
    (a.small (musicTokenRequest (utf8 a.guidText) (utf8 devToken) nowMs)) "music_token"
  have hreply : a.reply nl nowMs = ⟨a.storefront, devToken, a.guidText, musicToken,
      extractDsidFromJwt nl (utf8 devToken)⟩ := by
    unfold TextualApple.reply
    simp [hdev, hmusic]
  have hsf : harvestStorefront a.toApple = some (utf8 a.storefront) := a.storefront_eq
  rw [hreply]
  unfold harvestAll WrapperPaas.harvestAll requestsFor
  rw [hsf]
  by_cases hstorefront : a.storefront = ""
  · simp [hstorefront, utf8_eq_nil, Harvested.of]
  have hsent := run_harvestDevToken nl a.toApple []
  rw [hdev] at hsent
  by_cases hdevToken : devToken = ""
  · simp [hstorefront, hdevToken, hsent, utf8_eq_nil, Harvested.of]
  by_cases hguid : a.guidText = ""
  · simp [hstorefront, hdevToken, hguid, hsent, a.guid_eq, utf8_eq_nil, Harvested.of]
  have hsent' := run_harvestMusicUserToken nl a.toApple [devTokenRequest] (utf8 a.guidText)
    (utf8 devToken) nowMs
  rw [hmusic] at hsent'
  by_cases hmusicToken : musicToken = ""
  · simp [hstorefront, hdevToken, hguid, hmusicToken, hsent, hsent', a.guid_eq, utf8_eq_nil,
      Harvested.of]
  cases hdsid : extractDsidFromJwt nl (utf8 devToken) with
  | none =>
    simp [hstorefront, hdevToken, hguid, hmusicToken, hsent, hsent', hdsid, a.guid_eq,
      utf8_eq_nil, Harvested.of]
  | some dsid =>
    simp [hstorefront, hdevToken, hguid, hmusicToken, hsent, hsent', hdsid, a.guid_eq,
      utf8_eq_nil, Harvested.of]

/-! ### Strings of the library -/

/-- The bytes of a number, the low ones first. -/
def toLE : (count n : Nat) → Bytes
  | 0, _ => []
  | count + 1, n => UInt8.ofNat n :: toLE count (n / 256)

@[simp] theorem length_toLE (count n : Nat) : (toLE count n).length = count := by
  induction count generalizing n with
  | zero => rfl
  | succ count ih => rw [toLE, List.length_cons, ih]

theorem ofLE_toLE (count n : Nat) : ofLE (toLE count n) = n % 256 ^ count := by
  induction count generalizing n with
  | zero => exact (Nat.mod_one n).symm
  | succ count ih =>
    have hmod := Nat.mod_mul (x := n) (a := 256) (b := 256 ^ count)
    rw [toLE, ofLE, ih, UInt8.toNat_ofNat', Nat.pow_succ' (m := 256), hmod]

/-- A string as it is laid out: in the object itself, or behind a pointer. -/
def stringOf (b : Bytes) (capacity address : Nat) : StdString :=
  if h : b.length ≤ 22 then
    { object := UInt8.ofNat (2 * b.length) :: (b ++ List.replicate (23 - b.length) 0)
      size24 := by simp; omega
      data := none }
  else
    { object := toLE 8 (2 * capacity + 1) ++ (toLE 8 b.length ++ toLE 8 address)
      size24 := by simp
      data := some (b ++ [0]) }

theorem readStdString_stringOf {b : Bytes} (hb : b.length < 2 ^ 64) (capacity address : Nat) :
    readStdString (stringOf b capacity address) = some b := by
  unfold stringOf
  split_ifs with h
  · have hmark : ofLE [UInt8.ofNat (2 * b.length)] = 2 * b.length := by
      show (UInt8.ofNat (2 * b.length)).toNat + 256 * 0 = _
      rw [UInt8.toNat_ofNat']
      omega
    unfold readStdString
    dsimp only [List.take_succ_cons, List.take_zero, List.drop_succ_cons, List.drop_zero]
    rw [hmark, if_neg (by omega), if_pos (by omega), Nat.mul_div_cancel_left _ (by decide)]
    exact congrArg some List.take_left
  · have hmark : ofLE ((toLE 8 (2 * capacity + 1) ++ (toLE 8 b.length ++ toLE 8 address)).take 1) %
        2 ≠ 0 := by
      show ((UInt8.ofNat (2 * capacity + 1)).toNat + 256 * 0) % 2 ≠ 0
      rw [UInt8.toNat_ofNat']
      omega
    have hsize : ofLE (((toLE 8 (2 * capacity + 1) ++
        (toLE 8 b.length ++ toLE 8 address)).drop 8).take 8) = b.length := by
      rw [List.drop_left' (length_toLE 8 _), List.take_left' (length_toLE 8 _), ofLE_toLE]
      exact Nat.mod_eq_of_lt hb
    unfold readStdString
    dsimp only
    rw [if_pos hmark, hsize, if_neg (by omega), if_pos (by simp), List.take_left]

/-! ### The service -/

/-- A response with a token at a key of its object. -/
structure TokenReply (nl : Nlohmann) (key : String) where
  token : String
  token_ne : token ≠ ""
  bom : Bool
  guard : Guard
  object : ObjectText
  value : Value
  parsed : nl.parse object.text = .ok value
  found : stringAt value key = some token
  trailing : Bytes
  unbroken : guard = .direct → 10 ∉ object.text ++ trailing
  small : (responseBody bom guard object trailing).length < 2 ^ 31

section Reply

variable {nl : Nlohmann} {key : String} (r : TokenReply nl key)

def TokenReply.body : Bytes := responseBody r.bom r.guard r.object r.trailing

theorem cString_append {b : Bytes} (hb : 0 ∉ b) (rest : Bytes) :
    cString (b ++ rest) = b ++ cString rest := by
  refine List.takeWhile_append_of_pos fun c hc => ?_
  exact decide_eq_true fun h => hb (h ▸ hc)

theorem mem_of_mem_cString {b : Bytes} {c : UInt8} (h : c ∈ cString b) : c ∈ b :=
  (List.takeWhile_prefix _).subset h

/-- Only what follows on the object can have a null character. -/
theorem TokenReply.cString_body :
    cString r.body = responseBody r.bom r.guard r.object (cString r.trailing) := by
  have hbom : 0 ∉ (if r.bom then utf8Bom else [] : Bytes) := by
    cases r.bom with
    | true => decide
    | false => exact List.not_mem_nil
  have hguard : 0 ∉ r.guard.bytes := by
    cases r.guard with
    | absent => exact List.not_mem_nil
    | line => decide
    | direct => decide
  have htext : 0 ∉ r.object.text := fun h => absurd (r.object.derived.printed 0 h) (by decide)
  unfold TokenReply.body responseBody
  rw [cString_append hbom, cString_append hguard, cString_append htext]

/-- The object is found in the response. -/
theorem TokenReply.firstJsonObject_body :
    firstJsonObject (normalizeAppleJsonBody (cString r.body)) = some r.object.text := by
  have hnesting : r.object.nesting ≤ intMax := by
    have hle := r.object.derived.nesting_le
    have hsmall := r.small
    unfold responseBody at hsmall
    simp only [List.length_append] at hsmall
    unfold intMax
    omega
  have hfirst := firstJsonObject_text r.object (p := []) List.not_mem_nil (cString r.trailing)
  rw [if_pos hnesting, List.nil_append] at hfirst
  rw [r.cString_body, normalize_bom]
  cases hguard : r.guard with
  | absent => rwa [normalize_absent]
  | line => rwa [normalize_line]
  | direct =>
    have hbreak : 10 ∉ r.object.text ++ cString r.trailing := by
      intro h
      have hmem := (List.mem_append.mp h).imp_right mem_of_mem_cString
      exact r.unbroken hguard (List.mem_append.mpr hmem)
    show firstJsonObject (normalizeAppleJsonBody (xssiGuard ++ _)) = _
    rwa [normalize_unbroken hbreak]

/-- The token is read. -/
theorem TokenReply.tokenIn_body : tokenIn nl (cString r.body) key = some r.token := by
  have hne : cString r.body ≠ [] := by
    intro h
    have hfirst := r.firstJsonObject_body
    rw [h] at hfirst
    exact r.object.text_ne_nil (Option.some.inj hfirst).symm
  have hparse : parse nl r.object.text = some r.value := by
    rw [parse, r.parsed]
    rfl
  unfold tokenIn stringInResponse
  rw [if_neg hne, parseAppleResponseJson_of_found r.firstJsonObject_body, hparse]
  simp [r.found]

end Reply

/-- A service with these identifiers and tokens. -/
structure Service (nl : Nlohmann) where
  storefront : String
  storefront_ne : storefront ≠ ""
  storefront_small : (utf8 storefront).length < 2 ^ 64
  guid : String
  guid_ne : guid ≠ ""
  guid_raw : ∀ c ∈ utf8 guid, Raw c
  devToken : TokenReply nl "token"
  devToken_raw : ∀ c ∈ utf8 devToken.token, Raw c
  musicToken : TokenReply nl "music_token"
  /-- of all other requests -/
  errorCode : Int
  /-- where the library has the storefront -/
  capacity : Nat
  address : Nat

namespace Service

variable {nl : Nlohmann} (s : Service nl)

/-- The body of a request for the music token, in which the device and the token are named. -/
def grants (body : Bytes) : Bool :=
  match read body with
  | some v => stringAt v "guid" = some s.guid && stringAt v "assertion" = some s.devToken.token
  | none => false

def answer (msg : HttpMessage) : UrlAnswer :=
  if msg.url = "https://sf-api-token-service.itunes.apple.com/apiToken" ∧ msg.method = "GET" ∧
      msg.params.lookup "clientId" = some "musicAndroid" then
    .bytes s.devToken.body
  else if msg.url = "https://play.itunes.apple.com/WebObjects/MZPlay.woa/wa/createMusicToken" ∧
      msg.method = "POST" ∧
      msg.headers.lookup "Content-Type" = some "application/json; charset=UTF-8" ∧
      msg.body.any s.grants then
    .bytes s.musicToken.body
  else .error s.errorCode none

def apple : Apple where
  storeFrontIdentifier := stringOf (utf8 s.storefront) s.capacity s.address
  guid := .bytes (utf8 s.guid)
  run := s.answer

@[simp] theorem apple_run (msg : HttpMessage) : s.apple.run msg = s.answer msg := rfl

theorem length_cString_le (b : Bytes) : (cString b).length ≤ b.length :=
  (List.takeWhile_prefix _).length_le

def library : TextualApple where
  toApple := s.apple
  storefront := s.storefront
  storefront_eq := readStdString_stringOf s.storefront_small s.capacity s.address
  guidText := s.guid
  guid_eq := by
    have hnul : 0 ∉ utf8 s.guid := fun h => absurd (s.guid_raw 0 h) (by decide)
    have hguid := cString_append hnul []
    rw [List.append_nil] at hguid
    rw [deviceGuidString, apple]
    exact hguid.trans (List.append_nil _)
  small msg := by
    unfold Apple.body apple answer
    dsimp only
    split_ifs
    · exact Nat.lt_of_le_of_lt (length_cString_le _) s.devToken.small
    · exact Nat.lt_of_le_of_lt (length_cString_le _) s.musicToken.small
    · exact Nat.pow_pos (by decide)

theorem body_devTokenRequest : s.apple.body devTokenRequest = cString s.devToken.body := by
  have hanswer : s.answer devTokenRequest = .bytes s.devToken.body := if_pos (by decide)
  rw [Apple.body, apple_run, hanswer]

/-- The request names the device and the token. -/
theorem grants_musicTokenBody (nowMs : Int) :
    s.grants (musicTokenBody (utf8 s.guid) (utf8 s.devToken.token) nowMs) = true := by
  unfold grants
  rw [read_musicTokenBody _ _ nowMs s.guid_raw s.devToken_raw]
  simp [stringAt, Value.object, assignMembers_request, Value.get, lookup_cons]

theorem body_musicTokenRequest (nowMs : Int) :
    s.apple.body (musicTokenRequest (utf8 s.guid) (utf8 s.devToken.token) nowMs) =
      cString s.musicToken.body := by
  have hanswer : s.answer (musicTokenRequest (utf8 s.guid) (utf8 s.devToken.token) nowMs) =
      .bytes s.musicToken.body := by
    unfold answer
    rw [if_neg (fun h => absurd h.2.1 (by decide : ¬ musicTokenMessage.method = "GET"))]
    refine if_pos ⟨rfl, rfl, rfl, ?_⟩
    exact s.grants_musicTokenBody nowMs
  rw [Apple.body, apple_run, hanswer]

theorem reply_library (nowMs : Int) : s.library.reply nl nowMs =
    ⟨s.storefront, s.devToken.token, s.guid, s.musicToken.token,
      extractDsidFromJwt nl (utf8 s.devToken.token)⟩ := by
  have hdev : tokenIn nl (s.apple.body devTokenRequest) "token" = some s.devToken.token := by
    rw [s.body_devTokenRequest, s.devToken.tokenIn_body]
  have hmusic : tokenIn nl
      (s.apple.body (musicTokenRequest (utf8 s.guid) (utf8 s.devToken.token) nowMs))
      "music_token" = some s.musicToken.token := by
    rw [s.body_musicTokenRequest, s.musicToken.tokenIn_body]
  unfold TextualApple.reply
  simp [library, hdev, hmusic]

end Service

/-- A response that is the compact text of an object with the token in it. -/
def TokenReply.plain (nl : Nlohmann) (key token : String) (hne : token ≠ "")
    (hsmall : (compact (.obj [(key, .str token)])).length < 2 ^ 31) : TokenReply nl key where
  token
  token_ne := hne
  bom := false
  guard := .absent
  object := textOfMember key token
  value := .obj [(key, .str token)]
  parsed :=
    have hcanonical : (Value.obj [(key, .str token)]).Canonical :=
      ⟨List.pairwise_singleton _ _, trivial, trivial⟩
    (nl.parse_compact hcanonical).mpr ⟨fun _ h => (nomatch h), rfl⟩
  found := by simp [stringAt, Value.get]
  trailing := []
  unbroken h := by cases h
  small := by
    show ([] ++ ([] ++ (compact (.obj [(key, .str token)]) ++ []))).length < 2 ^ 31
    rwa [List.nil_append, List.nil_append, List.append_nil]

/-- **The harvest.**  Whatever the library answers, `harvest_all` fills the fields that the state of
the account expects of such answers, and makes only the requests that these need.  Of a service that
grants a music token to who names the device and the token, it gets all tokens with two requests. -/
theorem harvest_all_served (nl : Nlohmann) (a : TextualApple) (s : Service nl) (nowMs : Int)
    (t : Tokens) :
    (harvestAll nl a.toApple nowMs (.of t)).run [] =
        some (Prod.map id Harvested.of (WrapperPaas.harvestAll (a.reply nl nowMs) t),
          requestsFor (a.reply nl nowMs) nowMs) ∧
      (harvestAll nl s.apple nowMs (.of t)).run [] =
        some ((true, ⟨utf8 s.storefront, s.devToken.token, s.musicToken.token,
            (extractDsidFromJwt nl (utf8 s.devToken.token)).getD t.dsid⟩),
          [devTokenRequest, musicTokenRequest (utf8 s.guid) (utf8 s.devToken.token) nowMs]) := by
  refine ⟨harvestAll_refines nl a nowMs t, ?_⟩
  have hrun := harvestAll_refines nl s.library nowMs t
  rw [s.reply_library] at hrun
  refine hrun.trans ?_
  have hharvest : WrapperPaas.harvestAll ⟨s.storefront, s.devToken.token, s.guid,
      s.musicToken.token, extractDsidFromJwt nl (utf8 s.devToken.token)⟩ t =
      (true, { t with
        storefront := s.storefront
        devToken := s.devToken.token
        musicUserToken := s.musicToken.token
        dsid := (extractDsidFromJwt nl (utf8 s.devToken.token)).getD t.dsid }) := by
    unfold WrapperPaas.harvestAll
    simp only [s.storefront_ne, s.devToken.token_ne, s.guid_ne, s.musicToken.token_ne, if_false]
    cases extractDsidFromJwt nl (utf8 s.devToken.token) with
    | none => rfl
    | some dsid => rfl
  rw [hharvest, requestsFor, if_neg s.storefront_ne,
    if_neg (not_or.mpr ⟨s.devToken.token_ne, s.guid_ne⟩)]
  rfl

example (nl : Nlohmann) : Service nl where
  storefront := "143441-1,29"
  storefront_ne := by decide
  storefront_small := by decide
  guid := "0123456789abcdef"
  guid_ne := by decide
  guid_raw := forall_mem_of_all (by decide)
  devToken := .plain nl "token" "e30.e30.e30" (by decide) (by decide)
  devToken_raw := by
    show ∀ c ∈ utf8 "e30.e30.e30", Raw c
    exact forall_mem_of_all (by decide)
  musicToken := .plain nl "music_token" "0.AgAA" (by decide) (by decide)
  errorCode := 0
  capacity := 0
  address := 0

end Harvest

end WrapperPaas
