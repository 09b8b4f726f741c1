import WebhookBroker.Lib.Decimal
import WebhookBroker.Lib.Text
import WebhookBroker.Data.Common

/-!
# Signed requests (`parking/handoff.go`, `controllers/hmac_middleware.go`)

The hand-off of the parking drainer signs its requests, and the HMAC middleware of every node checks
signatures. The header has the form `t=…,v1=…`, with the time of the request and the hexadecimal MAC
of the time and the body. The receiver formats the time that it parsed again before it computes the
MAC, so that leading zeros, a plus sign or white space in the header change nothing, and it takes
exactly two parts, so that no part can be given twice.

HMAC-SHA256 and the conversion of `int64` to `float64` are parameters. A payload is the decimal text
of the time, a point and the body; the first point ends the time, and so a payload stands for one
time and one body only.
-/

namespace WebhookBroker

open Lib List

def signedPayload (timestamp : Int) (body : List Char) : List Char :=
  formatInt timestamp ++ '.' :: body

section
variable (hmac : List Char → List Char → List UInt8)

def hexMAC (secret : List Char) (timestamp : Int) (body : List Char) : List Char :=
  encodeToString (hmac secret (signedPayload timestamp body))

def signPayload (secret : List Char) (timestamp : Int) (body : List Char) : List Char :=
  "t=".toList ++ formatInt timestamp ++ ",v1=".toList ++ hexMAC hmac secret timestamp body

end

structure SignatureParts where
  timestamp : Int := 0
  signature : List Char := []
  foundTimestamp : Bool := false
  foundSignature : Bool := false

/-- One round of the loop; `none` is the error. -/
def SignatureParts.add (parts : SignatureParts) (part : List Char) : Option SignatureParts :=
  let part := trimSpace part
  if "t=".toList.isPrefixOf part then
    (parseInt (trimPrefix part "t=".toList)).map fun timestamp =>
      { parts with timestamp, foundTimestamp := true }
  else if "v1=".toList.isPrefixOf part then
    some { parts with signature := trimPrefix part "v1=".toList, foundSignature := true }
  else some parts

/-- `parseSignatureHeader`; `none` is `errMalformedSignatureHeader`. -/
def parseSignatureHeader (header : List Char) : Option (Int × List Char) :=
  let parts := header.splitOn ','
  if parts.length ≠ 2 then none
  else do
    let found ← parts.foldlM SignatureParts.add {}
    if !found.foundTimestamp || !found.foundSignature then none
    else return (found.timestamp, found.signature)

section
variable (float64 : Int → ℚ)

def seconds (d : Duration) : ℚ := float64 (d.tdiv second) + float64 (d.tmod second) / 1000000000

def withinTolerance (now timestamp : Int) (tolerance : Duration) : Bool :=
  !decide (seconds float64 tolerance < |float64 (wrap64 (now - timestamp))|)

end

structure GatewayAuthConfig where
  isGatewayAuthEnabled : Bool
  hmacSharedSecret : List Char
  hmacTimestampTolerance : Duration
  authExemptPaths : List (List Char)

/-- What the middleware reads of a request: `signature` is the value of `X-Broker-Signature`, empty
if there is none, and `body` is what `ReadAll` returns, `none` an error. -/
structure SignedRequest where
  path : List Char
  signature : List Char
  body : Option (List Char)

inductive GatewayAuthErr where
  | missingSignatureHeader
  | malformedSignatureHeader
  | timestampOutsideTolerance
  | invalidSignature
  | bodyReadFailure
deriving DecidableEq

def GatewayAuthErr.text : GatewayAuthErr → String
  | .missingSignatureHeader => "missing X-Broker-Signature header"
  | .malformedSignatureHeader => "malformed X-Broker-Signature header"
  | .timestampOutsideTolerance => "request timestamp outside tolerance window"
  | .invalidSignature => "invalid signature"
  | .bodyReadFailure => "could not read request body"

/-- What the middleware does: it passes the request on, with a body that the next handler reads, or
writes a status. -/
inductive GatewayAuthResult where
  | serve (body : Option (List Char))
  | status (code : Nat) (err : GatewayAuthErr)
deriving DecidableEq

/-- A path that begins like an exempt one. -/
def GatewayAuthConfig.isExempt (authConfig : GatewayAuthConfig) (path : List Char) : Bool :=
  authConfig.authExemptPaths.any (·.isPrefixOf path)

/-- The handler that `NewHMACMiddleware` returns, when the clock reads `now`. -/
def hmacMiddleware (hmac : List Char → List Char → List UInt8) (float64 : Int → ℚ)
    (authConfig : GatewayAuthConfig) (now : Int) (r : SignedRequest) : GatewayAuthResult :=
  if !authConfig.isGatewayAuthEnabled || authConfig.isExempt r.path then .serve r.body
  else if r.signature.isEmpty then .status 401 .missingSignatureHeader
  else match parseSignatureHeader r.signature with
    | none => .status 401 .malformedSignatureHeader
    | some (timestamp, signature) =>
      if !withinTolerance float64 now timestamp authConfig.hmacTimestampTolerance then
        .status 403 .timestampOutsideTolerance
      else match r.body with
        | none => .status 500 .bodyReadFailure
        | some body =>
          if hexMAC hmac authConfig.hmacSharedSecret timestamp body ≠ signature then
            .status 403 .invalidSignature
          else .serve (some body)

/-! ## What the sender writes is read back -/

section
variable {hmac : List Char → List Char → List UInt8} {secret body : List Char} {t : Int}

theorem isGraphic_formatInt {c : Char} (h : c ∈ formatInt t) :
    isGraphic c = true ∧ c ≠ ',' ∧ c ≠ '.' := by
  rcases mem_formatInt h with rfl | hdigit
  · decide
  · rw [Char.isDigit, Bool.and_eq_true, decide_eq_true_eq, decide_eq_true_eq] at hdigit
    have hlow : 48 ≤ c.toNat := hdigit.1
    have hhigh : c.toNat ≤ 57 := hdigit.2
    refine ⟨?_, ?_, ?_⟩
    · simp only [isGraphic, Bool.and_eq_true, decide_eq_true_eq]
      omega
    · rintro rfl
      exact absurd hlow (by decide)
    · rintro rfl
      exact absurd hlow (by decide)

/-- A text after a prefix of graphic characters, if it has only such characters. -/
theorem trimSpace_append {pre s : List Char} (hne : pre ≠ [])
    (hpre : ∀ c ∈ pre, isGraphic c = true) (hs : ∀ c ∈ s, isGraphic c = true) :
    trimSpace (pre ++ s) = pre ++ s := by
  have hall : ∀ c ∈ pre ++ s, isGraphic c = true := by
    intro c hc
    exact (mem_append.1 hc).elim (hpre c) (hs c)
  have happ : pre ++ s ≠ [] := append_ne_nil_of_left_ne_nil hne s
  obtain ⟨c, rest, hcons⟩ := exists_cons_of_ne_nil happ
  obtain ⟨init, d, hconcat⟩ := eq_nil_or_concat (pre ++ s) |>.resolve_left happ
  rw [concat_eq_append] at hconcat
  refine trimSpace_eq_self (hall c ?_) (hall d ?_) (by rw [hcons]; rfl) hconcat
  · rw [hcons]
    exact mem_cons_self
  · rw [hconcat]
    simp

theorem splitOn_signPayload :
    (signPayload hmac secret t body).splitOn ',' =
      ["t=".toList ++ formatInt t, "v1=".toList ++ hexMAC hmac secret t body] := by
  have hjoin : signPayload hmac secret t body =
      [','].intercalate
        ["t=".toList ++ formatInt t, "v1=".toList ++ hexMAC hmac secret t body] := by
    simp [signPayload, List.intercalate]
  rw [hjoin, splitOn_intercalate]
  · intro l hl
    simp only [mem_cons, not_mem_nil, or_false] at hl
    rcases hl with rfl | rfl
    · intro hmem
      rcases mem_append.1 hmem with hmem | hmem
      · exact absurd hmem (by decide)
      · exact (isGraphic_formatInt hmem).2.1 rfl
    · intro hmem
      rcases mem_append.1 hmem with hmem | hmem
      · exact absurd hmem (by decide)
      · exact (mem_encodeToString hmem).2 rfl
  · exact cons_ne_nil _ _

theorem SignatureParts.add_timestamp (parts : SignatureParts) (hmin : -2 ^ 63 ≤ t)
    (hmax : t < 2 ^ 63) : parts.add ("t=".toList ++ formatInt t) =
      some { parts with timestamp := t, foundTimestamp := true } := by
  have htrim : trimSpace ("t=".toList ++ formatInt t) = "t=".toList ++ formatInt t :=
    trimSpace_append (by simp) (by simp [isGraphic]) fun c hc => (isGraphic_formatInt hc).1
  have hdrop : trimPrefix ("t=".toList ++ formatInt t) "t=".toList = formatInt t := by
    simp [trimPrefix]
  unfold SignatureParts.add
  rw [htrim]
  dsimp only
  rw [hdrop, parseInt_formatInt hmin hmax, if_pos (by simp)]
  rfl

theorem SignatureParts.add_signature (parts : SignatureParts) :
    parts.add ("v1=".toList ++ hexMAC hmac secret t body) = some { parts with
      signature := hexMAC hmac secret t body, foundSignature := true } := by
  have htrim : trimSpace ("v1=".toList ++ hexMAC hmac secret t body) =
      "v1=".toList ++ hexMAC hmac secret t body :=
    trimSpace_append (by simp) (by simp [isGraphic]) fun c hc => (mem_encodeToString hc).1
  unfold SignatureParts.add
  rw [htrim]
  simp [trimPrefix]

theorem parseSignatureHeader_signPayload (hmin : -2 ^ 63 ≤ t) (hmax : t < 2 ^ 63) :
    parseSignatureHeader (signPayload hmac secret t body) =
      some (t, hexMAC hmac secret t body) := by
  unfold parseSignatureHeader
  rw [splitOn_signPayload]
  simp only [foldlM_cons, SignatureParts.add_timestamp _ hmin hmax,
    SignatureParts.add_signature, foldlM_nil]
  rfl

theorem SignatureParts.add_bounds {parts parts' : SignatureParts} {part : List Char}
    (hbounds : -2 ^ 63 ≤ parts.timestamp ∧ parts.timestamp < 2 ^ 63)
    (h : parts.add part = some parts') :
    -2 ^ 63 ≤ parts'.timestamp ∧ parts'.timestamp < 2 ^ 63 := by
  unfold SignatureParts.add at h
  dsimp only at h
  split at h
  · obtain ⟨i, hparse, rfl⟩ := Option.map_eq_some_iff.1 h
    exact parseInt_bounds hparse
  · split at h <;>
    · cases h
      exact hbounds

theorem parseSignatureHeader_bounds {header signature : List Char}
    (h : parseSignatureHeader header = some (t, signature)) : -2 ^ 63 ≤ t ∧ t < 2 ^ 63 := by
  have hfold : ∀ (l : List (List Char)) (parts parts' : SignatureParts),
      -2 ^ 63 ≤ parts.timestamp ∧ parts.timestamp < 2 ^ 63 →
      l.foldlM SignatureParts.add parts = some parts' →
      -2 ^ 63 ≤ parts'.timestamp ∧ parts'.timestamp < 2 ^ 63 := by
    intro l
    induction l with
    | nil =>
      rintro parts parts' hbounds ⟨⟩
      exact hbounds
    | cons part l ih =>
      intro parts parts' hbounds hl
      rw [foldlM_cons] at hl
      obtain ⟨parts₁, hadd, hl⟩ := Option.bind_eq_some_iff.1 hl
      exact ih parts₁ parts' (SignatureParts.add_bounds hbounds hadd) hl
  unfold parseSignatureHeader at h
  dsimp only at h
  split at h
  · cases h
  · obtain ⟨found, hfound, h⟩ := Option.bind_eq_some_iff.1 h
    split at h
    · cases h
    · cases h
      exact hfold _ {} found (by decide) hfound

theorem signedPayload_inj {t' : Int} {body' : List Char} (ht : -2 ^ 63 ≤ t ∧ t < 2 ^ 63)
    (ht' : -2 ^ 63 ≤ t' ∧ t' < 2 ^ 63) (h : signedPayload t body = signedPayload t' body') :
    t = t' ∧ body = body' := by
  have hnot : ∀ t, '.' ∉ formatInt t := by
    intro t hmem
    exact (isGraphic_formatInt hmem).2.2 rfl
  obtain ⟨htime, hbody⟩ := eq_of_append_cons (hnot t) (hnot t') h
  exact ⟨formatInt_inj ht ht' htime, hbody⟩

/-- A request is passed on with the check of its signature behind it, if its path is not exempt. -/
theorem hmacMiddleware_serve {float64 : Int → ℚ} {authConfig : GatewayAuthConfig} {now : Int}
    {r : SignedRequest} {served : Option (List Char)}
    (henabled : authConfig.isGatewayAuthEnabled = true)
    (hexempt : authConfig.isExempt r.path = false)
    (h : hmacMiddleware hmac float64 authConfig now r = .serve served) :
    ∃ t body, served = some body ∧ r.body = some body ∧
      parseSignatureHeader r.signature =
        some (t, hexMAC hmac authConfig.hmacSharedSecret t body) ∧
      withinTolerance float64 now t authConfig.hmacTimestampTolerance = true := by
  unfold hmacMiddleware at h
  rw [henabled, hexempt, if_neg (by decide)] at h
  split at h
  · cases h
  · split at h
    · cases h
    · rename_i t signature hparse
      split at h
      · cases h
      · rename_i hwithin
        rw [Bool.not_eq_true, Bool.not_eq_false'] at hwithin
        split at h
        · cases h
        · rename_i body hbody
          split at h
          · cases h
          · rename_i hmac_eq
            cases h
            rw [not_not] at hmac_eq
            exact ⟨t, body, rfl, hbody, by rw [hparse, hmac_eq], hwithin⟩

theorem hmacMiddleware_signPayload {float64 : Int → ℚ} {authConfig : GatewayAuthConfig} {now : Int}
    {r : SignedRequest} (hmin : -2 ^ 63 ≤ t) (hmax : t < 2 ^ 63)
    (hsignature : r.signature = signPayload hmac authConfig.hmacSharedSecret t body)
    (hbody : r.body = some body)
    (hwithin : withinTolerance float64 now t authConfig.hmacTimestampTolerance = true) :
    hmacMiddleware hmac float64 authConfig now r = .serve (some body) := by
  have hne : r.signature.isEmpty = false := by
    rw [hsignature]
    rfl
  unfold hmacMiddleware
  split
  · rw [hbody]
  · rw [hne, hsignature, parseSignatureHeader_signPayload hmin hmax]
    simp [hwithin, hbody]

end

/-- For every injective MAC, secret, 64-bit time and body: `parseSignatureHeader` reads back what
`SignPayload` writes; a node with the secret passes the signed request on when the time is within
tolerance; and a request for a path that is not exempt is passed on only with the MAC of its time
and body, which is that of no other secret, time or body. -/
theorem signature_round_trip (hmac : List Char → List Char → List UInt8)
    (hinj : Function.Injective fun p : List Char × List Char => hmac p.1 p.2)
    (float64 : Int → ℚ) (secret body : List Char) (t : Int) (hmin : -2 ^ 63 ≤ t)
    (hmax : t < 2 ^ 63) :
    parseSignatureHeader (signPayload hmac secret t body) =
      some (t, encodeToString (hmac secret (signedPayload t body))) ∧
    (∀ (authConfig : GatewayAuthConfig) (now : Int) (r : SignedRequest),
      authConfig.hmacSharedSecret = secret → r.signature = signPayload hmac secret t body →
      r.body = some body →
      withinTolerance float64 now t authConfig.hmacTimestampTolerance = true →
      hmacMiddleware hmac float64 authConfig now r = .serve (some body)) ∧
    (∀ (t' : Int) (body' : List Char), -2 ^ 63 ≤ t' → t' < 2 ^ 63 →
      signedPayload t body = signedPayload t' body' → t = t' ∧ body = body') ∧
    (∀ (authConfig : GatewayAuthConfig) (now : Int) (r : SignedRequest)
      (served : Option (List Char)), authConfig.isGatewayAuthEnabled = true →
      authConfig.isExempt r.path = false →
      hmacMiddleware hmac float64 authConfig now r = .serve served →
      ∃ t' body', served = some body' ∧ r.body = some body' ∧ (-2 ^ 63 ≤ t' ∧ t' < 2 ^ 63) ∧
        parseSignatureHeader r.signature = some (t',
          encodeToString (hmac authConfig.hmacSharedSecret (signedPayload t' body'))) ∧
        ∀ (secret' : List Char) (t'' : Int) (body'' : List Char), -2 ^ 63 ≤ t'' → t'' < 2 ^ 63 →
          encodeToString (hmac authConfig.hmacSharedSecret (signedPayload t' body')) =
            encodeToString (hmac secret' (signedPayload t'' body'')) →
          secret' = authConfig.hmacSharedSecret ∧ t'' = t' ∧ body'' = body') := by
  refine ⟨parseSignatureHeader_signPayload hmin hmax, ?_, ?_, ?_⟩
  · rintro authConfig now r rfl hsignature hbody hwithin
    exact hmacMiddleware_signPayload hmin hmax hsignature hbody hwithin
  · intro t' body' hmin' hmax' h
    exact signedPayload_inj ⟨hmin, hmax⟩ ⟨hmin', hmax'⟩ h
  · intro authConfig now r served henabled hexempt h
    obtain ⟨t', body', hserved, hbody, hparse, -⟩ := hmacMiddleware_serve henabled hexempt h
    have hbounds := parseSignatureHeader_bounds hparse
    refine ⟨t', body', hserved, hbody, hbounds, hparse, ?_⟩
    intro secret' t'' body'' hmin'' hmax'' hsame
    have hpair := @hinj (authConfig.hmacSharedSecret, signedPayload t' body')
      (secret', signedPayload t'' body'') (encodeToString_injective hsame)
    obtain ⟨hsecret, hpayload⟩ := Prod.mk.inj hpair
    obtain ⟨ht, hb⟩ := signedPayload_inj hbounds ⟨hmin'', hmax''⟩ hpayload
    exact ⟨hsecret.symm, ht.symm, hb.symm⟩

/-- A MAC that is injective: every character of the secret and of the payload in three bytes. -/
def Sample.mac (secret payload : List Char) : List UInt8 :=
  encode secret ++ 0 :: encode payload
where
  encode (s : List Char) : List UInt8 := s.flatMap fun c =>
    [1, UInt8.ofNat (c.toNat / 65536), UInt8.ofNat (c.toNat / 256), UInt8.ofNat c.toNat]

theorem Sample.encode_append_inj {s s' : List Char} {x x' : List UInt8}
    (h : mac.encode s ++ 0 :: x = mac.encode s' ++ 0 :: x') : s = s' ∧ x = x' := by
  induction s generalizing s' with
  | nil =>
    cases s' with
    | nil => exact ⟨rfl, (List.cons.inj h).2⟩
    | cons c s' => exact absurd (List.cons.inj h).1 (by decide)
  | cons c s ih =>
    cases s' with
    | nil => exact absurd (List.cons.inj h).1 (by decide)
    | cons c' s' =>
      simp only [mac.encode, flatMap_cons, cons_append, nil_append, List.cons.injEq,
        true_and] at h
      obtain ⟨hhigh, hmid, hlow, htail⟩ := h
      have hlt : ∀ c : Char, c.toNat < 0x110000 := fun c => by
        have := c.valid
        simp only [UInt32.isValidChar, Nat.isValidChar] at this
        show c.val.toNat < _
        omega
      have hc := hlt c
      have hc' := hlt c'
      have hhigh' := congrArg UInt8.toNat hhigh
      have hmid' := congrArg UInt8.toNat hmid
      have hlow' := congrArg UInt8.toNat hlow
      simp only [UInt8.toNat_ofNat'] at hhigh' hmid' hlow'
      have heq : c = c' := Char.toNat_inj.1 (by omega)
      obtain ⟨rfl, hx⟩ := ih htail
      exact ⟨by rw [heq], hx⟩

theorem Sample.mac_injective :
    Function.Injective fun p : List Char × List Char => mac p.1 p.2 := by
  rintro ⟨s, p⟩ ⟨s', p'⟩ h
  obtain ⟨rfl, hp⟩ := encode_append_inj h
  obtain ⟨rfl, -⟩ := @encode_append_inj p p' [] [] (by rw [hp])
  rfl

open Sample

theorem signature_round_trip_read_back :
    parseSignatureHeader (signPayload mac "k".toList 1708200000 "x".toList) =
      some (1708200000,
        encodeToString (mac "k".toList (signedPayload 1708200000 "x".toList))) :=
  (signature_round_trip mac mac_injective (fun i => i) "k".toList "x".toList
    1708200000
    (by omega) (by omega)).1

/-! ## The check of the timestamp -/

section
variable {float64 : Int → ℚ}

theorem seconds_whole (hexact : ∀ i : Int, |i| ≤ 2 ^ 53 → float64 i = i) {n : Nat}
    (hn : n * second < 2 ^ 63) : seconds float64 (n * second) = n := by
  have hn' : (n : Int) * 1000000000 < 2 ^ 63 := hn
  have hdiv : ((n : Int) * second).tdiv second = n := Int.mul_tdiv_cancel _ (by decide)
  have hmod : ((n : Int) * second).tmod second = 0 := Int.mul_tmod_left _ _
  have hnat : |(n : Int)| ≤ 2 ^ 53 := by
    rw [abs_of_nonneg (by omega)]
    omega
  rw [seconds, hdiv, hmod, hexact n hnat, hexact 0 (by decide)]
  simp

/-- Between a converted difference and a small bound, the conversion does not matter. -/
theorem abs_float64_le_iff (hmono : Monotone float64)
    (hexact : ∀ i : Int, |i| ≤ 2 ^ 53 → float64 i = i) {n : Nat} (hn : n < 2 ^ 53) (w : Int) :
    |float64 w| ≤ n ↔ |w| ≤ n := by
  have hbig : float64 (2 ^ 53) = 2 ^ 53 := by
    rw [hexact _ (by decide)]
    norm_num
  have hsmall : float64 (-2 ^ 53) = -2 ^ 53 := by
    rw [hexact _ (by decide)]
    norm_num
  have hnq : (n : ℚ) < 2 ^ 53 := by exact_mod_cast hn
  rcases le_or_gt |w| (2 ^ 53) with hle | hgt
  · rw [hexact w hle]
    exact_mod_cast Iff.rfl
  · have hright : ¬ |w| ≤ n := by omega
    have hleft : ¬ |float64 w| ≤ n := by
      rw [not_le]
      rcases lt_abs.1 hgt with hpos | hneg
      · have := hmono hpos.le
        rw [hbig] at this
        exact hnq.trans_le (this.trans (le_abs_self _))
      · have hw : w ≤ -2 ^ 53 := by omega
        have := hmono hw
        rw [hsmall] at this
        exact hnq.trans_le ((by linarith : (2 : ℚ) ^ 53 ≤ -float64 w).trans (neg_le_abs _))
    exact ⟨fun h => absurd h hleft, fun h => absurd h hright⟩

end

/-- For every 64-bit time `t` and whole number of seconds that a `Duration` holds, the check passes
if and only if `now` and `t` are at most that far apart, unless `t` is so far in the past that the
difference wraps around almost completely. -/
theorem withinTolerance_iff (float64 : Int → ℚ) (hmono : Monotone float64)
    (hexact : ∀ i : Int, |i| ≤ 2 ^ 53 → float64 i = i) (now t : Int) (hnow : 0 ≤ now)
    (hnow' : now < 2 ^ 63) (ht : -2 ^ 63 ≤ t) (ht' : t < 2 ^ 63) (tolerance : Nat)
    (htolerance : tolerance * second < 2 ^ 63) :
    (withinTolerance float64 now t (tolerance * second) = true ↔ |now - t| ≤ tolerance) ↔
      now - t < 2 ^ 64 - tolerance := by
  have htol : (tolerance : Int) * 1000000000 < 2 ^ 63 := htolerance
  have hpasses : withinTolerance float64 now t (tolerance * second) = true ↔
      |wrap64 (now - t)| ≤ tolerance := by
    rw [← abs_float64_le_iff hmono hexact (by omega), withinTolerance,
      seconds_whole hexact htolerance]
    simp
  rw [hpasses]
  rcases lt_or_ge (now - t) (2 ^ 63) with hlt | hge
  · rw [wrap64_of_bounds (by omega) hlt]
    simp only [true_iff]
    omega
  · have hwrap : wrap64 (now - t) = now - t - 2 ^ 64 := by
      have hsplit : now - t = now - t - 2 ^ 64 + (2 ^ 64 : Nat) := by omega
      unfold wrap64
      rw [hsplit, Int.add_bmod_right, Int.bmod_eq_of_le (by omega) (by omega)]
      omega
    rw [hwrap, abs_of_nonneg (show 0 ≤ now - t by omega),
      abs_of_nonpos (show now - t - 2 ^ 64 ≤ 0 by omega)]
    omega

theorem withinTolerance_iff_five_minutes :
    withinTolerance (fun i => i) 1708200300 1708200000 (300 * second) = true :=
  ((withinTolerance_iff (fun i => i) Int.cast_mono (fun _ _ => rfl) 1708200300 1708200000
    (by omega) (by omega) (by omega) (by omega) 300 (by decide)).2 (by omega)).2 (by decide)

/-- At the end of the clock's range, the earliest time there is counts as one second away. -/
theorem withinTolerance_wraps :
    parseSignatureHeader "t=-9223372036854775808,v1=".toList = some (-9223372036854775808, []) ∧
    withinTolerance (fun i => i) 9223372036854775807 (-9223372036854775808) (1 * second) = true ∧
    ¬ |9223372036854775807 - (-9223372036854775808 : Int)| ≤ 1 := by
  refine ⟨by decide, ?_, by decide⟩
  have hwrap : wrap64 (9223372036854775807 - -9223372036854775808) = -1 := by decide
  have hseconds : seconds (fun i => i) (1 * second) = 1 :=
    seconds_whole (n := 1) (fun _ _ => rfl) (by decide)
  rw [withinTolerance, hwrap, hseconds]
  decide

end WebhookBroker
