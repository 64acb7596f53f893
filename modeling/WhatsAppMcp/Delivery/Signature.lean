import Mathlib.Data.List.Basic
import WhatsAppMcp.Controller.Pi.ToolEvents
import WhatsAppMcp.Delivery.Agreement
import WhatsAppMcp.Lib.Hex
import WhatsAppMcp.Lib.Utf8

/-!
# The signature of a request

`Deliver` of `notify/client.go` signs a request, and the function that
`createSignatureVerifier` of `intake/signature.ts` returns checks it.  HMAC is a parameter,
of which only the length of a tag is known.

* `isTimestamp_iff`, `isSignature_iff`: the patterns of the two headers.
* `verify_iff`: what is verified.
* `deliver_verified_iff`: a request of the bridge is verified exactly where the clocks agree.
* `one_signature`: what a signature that is seen twice is good for.
* `admitted_authentic`: whoever sends a request, the event that the controller takes from it is
  one that the bridge signed.
-/

namespace WhatsAppMcp.Delivery

open Bridge.Store (Notification)
open Bridge.Notify (Body)
open Controller (NotificationV2 AdmissionPolicy)
open Controller.Intake (Request Conditions HttpConfig admitted admittedBody admitted_parse parsePayload_ok
  parsePayload_safe)

/-- HMAC with SHA-256: the tag of a message under a key. -/
structure Hmac where
  tag : List UInt8 → List UInt8 → List UInt8
  length_tag : ∀ key message, (tag key message).length = 32

/-- The bytes of a text. -/
def bytesOf (text : String) : List UInt8 := Utf8.encode text.toList

/-! ## The bridge -/

/-- What is signed: the timestamp, a dot, and the body. -/
def signedBytes (timestamp : String) (body : List UInt8) : List UInt8 :=
  bytesOf (timestamp ++ ".") ++ body

/-- The headers `X-Webhook-Timestamp` and `X-Webhook-Signature-V2` of `Deliver`. -/
def sign (hmac : Hmac) (secret : String) (unix : Int) (body : List UInt8) : String × String :=
  (unix.repr, String.ofList (Hex.encode (hmac.tag (bytesOf secret) (signedBytes unix.repr body))))

/-! ## The controller -/

/-- `/^(0|[1-9]\d{0,11})$/`. -/
def isTimestamp (text : String) : Bool :=
  match text.toList with
  | [] => false
  | c :: rest => text = "0" ||
      ('1' ≤ c && c ≤ '9' && rest.length ≤ 11 && rest.all Char.isDigit)

/-- `/^[0-9a-f]{64}$/`. -/
def isSignature (text : String) : Bool := text.toList.length = 64 && text.toList.all Hex.isDigit

/-- The function that `createSignatureVerifier` returns: it does not throw.  The time is that of
the clock in milliseconds. -/
def verify (hmac : Hmac) (secret : String) (freshnessSeconds : Nat) (now : Int) (body : List UInt8)
    (timestamp signature : Option String) : Bool :=
  match timestamp, signature with
  | some t, some s =>
    isTimestamp t && isSignature s &&
      let signedAt : Int := Decimal.value t
      let now := now / 1000
      now.natAbs ≤ Controller.maxSafeInteger && (now - signedAt).natAbs ≤ freshnessSeconds &&
        Hex.decode s.toList = hmac.tag (bytesOf secret) (signedBytes t body)
  | _, _ => false

/-- `createSignatureVerifier` does not throw. -/
def configured (secret : String) (freshnessSeconds : Nat) : Bool :=
  !(secret.toList.all Controller.Pi.isTrimmed || secret = "INSECURE_NO_AUTH" ||
    (bytesOf secret).length < 32 || freshnessSeconds < 1 || 3600 < freshnessSeconds)

/-- `createSignatureVerifier`; `none` is its throw. -/
def createSignatureVerifier (hmac : Hmac) (secret : String) (freshnessSeconds : Nat) :
    Option (Int → List UInt8 → Option String → Option String → Bool) :=
  if configured secret freshnessSeconds then some (verify hmac secret freshnessSeconds) else none

/-! ## The two headers -/

theorem isDigit_iff {c : Char} : c.isDigit = true ↔ 48 ≤ c.toNat ∧ c.toNat ≤ 57 := by
  refine ⟨Decimal.digit_toNat, fun h => ?_⟩
  have hrange : 48 ≤ c.val ∧ c.val ≤ 57 :=
    ⟨UInt32.le_iff_toNat_le.mpr h.1, UInt32.le_iff_toNat_le.mpr h.2⟩
  simpa [Char.isDigit] using hrange

theorem isTimestamp_iff {text : String} :
    isTimestamp text = true ↔ ∃ n, n < 10 ^ 12 ∧ text = n.repr := by
  unfold isTimestamp
  constructor
  · intro h
    split at h
    · cases h
    next c rest hlist =>
    rw [Bool.or_eq_true, decide_eq_true_eq] at h
    obtain rfl | h := h
    · exact ⟨0, by decide, rfl⟩
    simp only [Bool.and_eq_true, decide_eq_true_eq, List.all_eq_true] at h
    obtain ⟨⟨⟨hlow, hhigh⟩, hlength⟩, hrest⟩ := h
    have hlow : 49 ≤ c.toNat := UInt32.le_iff_toNat_le.mp hlow
    have hhigh : c.toNat ≤ 57 := UInt32.le_iff_toNat_le.mp hhigh
    have hdigits : ∀ d ∈ text.toList, d.isDigit = true := by
      rw [hlist]
      intro d hd
      obtain rfl | hd := List.mem_cons.mp hd
      · exact isDigit_iff.mpr ⟨by omega, hhigh⟩
      · exact hrest d hd
    have hcanonical : Decimal.Canonical text := by
      refine ⟨by rw [hlist]; exact List.cons_ne_nil _ _, hdigits, .inr ?_⟩
      rw [hlist]
      rintro hzero
      obtain rfl := Option.some.inj hzero
      exact absurd hlow (by decide)
    refine ⟨Decimal.value text, ?_, hcanonical.repr_value.symm⟩
    have hbound := Decimal.ofDigitChars_lt text.toList hdigits
    have hmono : 10 ^ text.toList.length ≤ 10 ^ 12 := by
      apply Nat.pow_le_pow_right (by decide)
      rw [hlist, List.length_cons]
      omega
    exact lt_of_lt_of_le hbound hmono
  · rintro ⟨n, hn, rfl⟩
    obtain ⟨hne, hdigits, hlead⟩ := Decimal.canonical_repr n
    have hlength : n.repr.toList.length ≤ 12 := (Nat.length_repr_le_iff (by decide)).mpr hn
    split
    · next hnil => exact absurd hnil hne
    next c rest hlist =>
    rw [hlist] at hdigits hlead hlength
    rw [Bool.or_eq_true, decide_eq_true_eq]
    obtain hzero | hhead := hlead
    · left
      apply String.toList_inj.mp
      rw [hlist, hzero]
      rfl
    · right
      have hc := Decimal.digit_toNat (hdigits c List.mem_cons_self)
      have hzero : c.toNat ≠ 48 := fun h => hhead (congrArg some (Char.toNat_inj.mp h))
      simp only [Bool.and_eq_true, decide_eq_true_eq, List.all_eq_true]
      refine ⟨⟨⟨?_, ?_⟩, ?_⟩, fun d hd => hdigits d (List.mem_cons_of_mem _ hd)⟩
      · apply UInt32.le_iff_toNat_le.mpr
        show 49 ≤ c.toNat
        omega
      · apply UInt32.le_iff_toNat_le.mpr
        show c.toNat ≤ 57
        omega
      · rw [List.length_cons] at hlength
        omega

theorem isSignature_iff {text : String} :
    isSignature text = true ↔ ∃ bytes : List UInt8, bytes.length = 32 ∧ text = String.ofList (Hex.encode bytes) := by
  unfold isSignature
  rw [Bool.and_eq_true, decide_eq_true_eq, List.all_eq_true]
  constructor
  · rintro ⟨hlength, hdigits⟩
    have hback := Hex.encode_decode _ hdigits (by omega)
    refine ⟨Hex.decode text.toList, ?_, ?_⟩
    · have := Hex.length_encode (Hex.decode text.toList)
      rw [hback] at this
      omega
    · rw [hback, String.ofList_toList]
  · rintro ⟨bytes, hlength, rfl⟩
    rw [String.toList_ofList]
    refine ⟨?_, Hex.isDigit_encode bytes⟩
    rw [Hex.length_encode]
    omega

/-! ## A request of the bridge -/

variable {hmac : Hmac} {secret : String} {freshnessSeconds : Nat} {now : Int} {body : List UInt8}

/-- What is verified: the digits of a fresh second, and the one signature of the body. -/
theorem verify_iff {t s : String} :
    verify hmac secret freshnessSeconds now body (some t) (some s) = true ↔
      ∃ n : Nat, n < 10 ^ 12 ∧ t = n.repr ∧ (now / 1000).natAbs ≤ Controller.maxSafeInteger ∧
        (now / 1000 - n).natAbs ≤ freshnessSeconds ∧
          s = String.ofList (Hex.encode (hmac.tag (bytesOf secret) (signedBytes t body))) := by
  unfold verify
  simp only [Bool.and_eq_true, decide_eq_true_eq, isTimestamp_iff, isSignature_iff]
  constructor
  · rintro ⟨⟨⟨n, hn, rfl⟩, bytes, -, rfl⟩, ⟨hsafe, hfresh⟩, htag⟩
    rw [Decimal.value_repr] at hfresh
    rw [String.toList_ofList, Hex.decode_encode] at htag
    exact ⟨n, hn, rfl, hsafe, hfresh, by rw [htag]⟩
  · rintro ⟨n, hn, rfl, hsafe, hfresh, rfl⟩
    refine ⟨⟨⟨n, hn, rfl⟩, _, hmac.length_tag _ _, rfl⟩, ⟨hsafe, ?_⟩, ?_⟩
    · rw [Decimal.value_repr]
      exact hfresh
    · rw [String.toList_ofList, Hex.decode_encode]

/-- A second that is written like a number is this number. -/
theorem eq_of_repr {unix : Int} {n : Nat} (h : unix.repr = n.repr) : unix = n := by
  cases unix with
  | ofNat m => exact congrArg Int.ofNat (Decimal.repr_injective h)
  | negSucc m =>
    have hhead : (Int.repr (Int.negSucc m)).toList.head? = some '-' := by
      show ("-" ++ (m + 1).repr).toList.head? = _
      rw [String.toList_append]
      rfl
    have hdigit : ∀ c ∈ n.repr.toList, c.isDigit = true := (Decimal.canonical_repr n).2.1
    rw [h] at hhead
    exact absurd (hdigit '-' (List.mem_of_head? hhead)) (by decide)

/-- What the bridge signs is verified exactly where the second of the signature is one of twelve
digits and fresh. -/
theorem verify_sign {unix : Int} :
    verify hmac secret freshnessSeconds now body (some (sign hmac secret unix body).1)
        (some (sign hmac secret unix body).2) = true ↔
      (now / 1000).natAbs ≤ Controller.maxSafeInteger ∧ 0 ≤ unix ∧ unix < 10 ^ 12 ∧
        (now / 1000 - unix).natAbs ≤ freshnessSeconds := by
  rw [verify_iff]
  constructor
  · rintro ⟨n, hn, hrepr, hsafe, hfresh, -⟩
    obtain rfl := eq_of_repr hrepr
    exact ⟨hsafe, Int.natCast_nonneg n, by omega, hfresh⟩
  · rintro ⟨hsafe, hnonneg, hbound, hfresh⟩
    obtain ⟨n, rfl⟩ := Int.eq_ofNat_of_zero_le hnonneg
    exact ⟨n, by omega, rfl, hsafe, hfresh, rfl⟩

/-- The check of `handle` on the signature of a request, with its raw body. -/
def verified (hmac : Hmac) (secret : String) (freshnessSeconds : Nat) (now : Int) (bytes : List UInt8)
    (req : Request) : Bool :=
  (createSignatureVerifier hmac secret freshnessSeconds).any fun verify =>
    verify now bytes (req.singleHeader "x-webhook-timestamp") (req.singleHeader "x-webhook-signature-v2")

/-- The request of `Deliver`, signed at a second. -/
def signedRequest (hmac : Hmac) (secret url length : String) (unix : Int) (bytes : List UInt8)
    (n : Notification) (body : Body) : Request :=
  requestOf ⟨url, (sign hmac secret unix bytes).1, (sign hmac secret unix bytes).2, length⟩ n body

/-- The names of the headers, as they are compared. -/
theorem headerNames : "Content-Length".toLower = "content-length" ∧
    "Content-Type".toLower = "content-type" ∧ "X-Request-Id".toLower = "x-request-id" ∧
      "X-Webhook-Signature-V2".toLower = "x-webhook-signature-v2" ∧
        "X-Webhook-Timestamp".toLower = "x-webhook-timestamp" := by decide +kernel

/-- With the same secret, a request of the bridge is verified exactly where the second of its
signature is one of twelve digits and fresh. -/
theorem deliver_verified_iff (url length : String) (unix : Int) (bytes : List UInt8) (n : Notification)
    (payload : Body) :
    verified hmac secret freshnessSeconds now bytes
        (signedRequest hmac secret url length unix bytes n payload) = true ↔
      configured secret freshnessSeconds = true ∧ (now / 1000).natAbs ≤ Controller.maxSafeInteger ∧
        0 ≤ unix ∧ unix < 10 ^ 12 ∧ (now / 1000 - unix).natAbs ≤ freshnessSeconds := by
  have htimestamp : (signedRequest hmac secret url length unix bytes n payload).singleHeader
      "x-webhook-timestamp" = some (sign hmac secret unix bytes).1 := by
    simp [Request.singleHeader, signedRequest, requestOf, headerNames]
  have hsignature : (signedRequest hmac secret url length unix bytes n payload).singleHeader
      "x-webhook-signature-v2" = some (sign hmac secret unix bytes).2 := by
    simp [Request.singleHeader, signedRequest, requestOf, headerNames]
  unfold verified createSignatureVerifier
  rw [htimestamp, hsignature]
  cases configured secret freshnessSeconds with
  | false => simp
  | true => simpa using verify_sign

/-- An event that reaches the store came with a signature that was verified. -/
theorem admitted_verified {http : HttpConfig} {policy : AdmissionPolicy} {cond : Conditions}
    {req : Request} {event : NotificationV2} (h : admitted http policy cond req = .ok event) :
    cond.verified = true := by
  unfold admitted admittedBody at h
  split at h
  · cases h
  split at h
  · cases h
  split at h
  · cases h
  split at h
  · cases h
  split at h
  · cases h
  split at h
  · cases h
  · next hverified => simpa using hverified

/-! ## What a signature is for -/

theorem encodeChar_digit {c : Char} (h : c.isDigit = true) :
    String.utf8EncodeChar c = [UInt8.ofNat c.toNat] := by
  have hrange := Decimal.digit_toNat h
  have hbyte : (UInt8.ofNat c.toNat).toNat = c.toNat := by
    rw [UInt8.toNat_ofNat']
    omega
  have hencode := Utf8.Decoder.encodeChar_one (a := UInt8.ofNat c.toNat) (by omega)
  rwa [hbyte, Char.ofNat_toNat] at hencode

/-- A number that is written has no dot. -/
theorem dot_notMem_repr (n : Nat) : 46 ∉ bytesOf n.repr := by
  intro hmem
  obtain ⟨c, hc, hbyte⟩ := List.mem_flatMap.mp hmem
  have hdigit := (Decimal.canonical_repr n).2.1 c hc
  have hrange := Decimal.digit_toNat hdigit
  rw [encodeChar_digit hdigit] at hbyte
  have hvalue := congrArg UInt8.toNat (List.mem_singleton.mp hbyte)
  rw [UInt8.toNat_ofNat'] at hvalue
  change 46 = _ at hvalue
  omega

theorem dot_notMem (unix : Int) : 46 ∉ bytesOf unix.repr := by
  cases unix with
  | ofNat n => exact dot_notMem_repr n
  | negSucc n =>
    have hminus : 46 ∉ Utf8.encode ['-'] := by decide
    show 46 ∉ bytesOf ("-" ++ (n + 1).repr)
    unfold bytesOf
    rw [String.toList_append, Utf8.encode, List.flatMap_append, List.mem_append, not_or]
    exact ⟨hminus, dot_notMem_repr (n + 1)⟩

theorem signedBytes_eq (t : String) (body : List UInt8) : signedBytes t body = bytesOf t ++ 46 :: body := by
  have hdot : Utf8.encode ['.'] = [46] := by decide
  unfold signedBytes bytesOf
  rw [String.toList_append]
  show Utf8.encode (t.toList ++ ['.']) ++ body = _
  rw [Utf8.encode, List.flatMap_append, List.append_assoc]
  show _ ++ (Utf8.encode ['.'] ++ body) = _
  rw [hdot]
  rfl

/-- A list is split in one way at the first place of an element. -/
theorem split_unique {x : UInt8} {as bs cs ds : List UInt8} (ha : x ∉ as) (hb : x ∉ bs)
    (h : as ++ x :: cs = bs ++ x :: ds) : as = bs ∧ cs = ds := by
  induction as generalizing bs with
  | nil =>
    cases bs with
    | nil => exact ⟨rfl, (List.cons.inj h).2⟩
    | cons b bs =>
      obtain rfl := (List.cons.inj h).1
      exact absurd List.mem_cons_self hb
  | cons a as ih =>
    cases bs with
    | nil =>
      obtain rfl := (List.cons.inj h).1
      exact absurd List.mem_cons_self ha
    | cons b bs =>
      obtain ⟨rfl, hrest⟩ := List.cons.inj h
      obtain ⟨rfl, htail⟩ := ih (fun hx => ha (List.mem_cons_of_mem _ hx))
        (fun hx => hb (List.mem_cons_of_mem _ hx)) hrest
      exact ⟨rfl, htail⟩

theorem bytesOf_injective {t t' : String} (h : bytesOf t = bytesOf t') : t = t' := by
  have htext := congrArg Utf8.decode h
  unfold bytesOf at htext
  rw [Utf8.decode_encode, Utf8.decode_encode] at htext
  exact String.toList_inj.mp (Option.some.inj htext)

/-- The signed bytes tell the timestamp and the body. -/
theorem signedBytes_injective {unix unix' : Int} {body body' : List UInt8}
    (h : signedBytes unix.repr body = signedBytes unix'.repr body') :
    unix.repr = unix'.repr ∧ body = body' := by
  rw [signedBytes_eq, signedBytes_eq] at h
  obtain ⟨hbytes, hbody⟩ := split_unique (dot_notMem unix) (dot_notMem unix') h
  exact ⟨bytesOf_injective hbytes, hbody⟩

def sampleSecret : String := "0123456789abcdef0123456789abcdef"

/-- The tag of `1767225600.{}` under the secret. -/
def sampleTag : List UInt8 :=
  [183, 190, 121, 56, 149, 28, 213, 69, 106, 30, 97, 1, 214, 47, 150, 0, 16, 174, 26, 123, 121, 69, 6,
    97, 198, 175, 65, 11, 162, 213, 245, 70]

/-- HMAC with SHA-256 on the signed bytes of the sample. -/
def sampleHmac : Hmac where
  tag key message :=
    if key = bytesOf sampleSecret ∧ message = signedBytes "1767225600" [123, 125] then sampleTag
    else List.replicate 32 0
  length_tag key message := by
    split
    · rfl
    · rfl

theorem verify_sample (now : Int) (hsafe : (now / 1000).natAbs ≤ Controller.maxSafeInteger)
    (hfresh : (now / 1000 - 1767225600).natAbs ≤ 300) :
    verify sampleHmac sampleSecret 300 now [123, 125] (some "1767225600")
      (some "b7be7938951cd5456a1e6101d62f960010ae1a7b79450661c6af410ba2d5f546") = true := by
  refine verify_iff.mpr ⟨1767225600, by decide, by decide +kernel, hsafe, hfresh, ?_⟩
  have htag : sampleHmac.tag (bytesOf sampleSecret) (signedBytes "1767225600" [123, 125]) = sampleTag := by
    simp [sampleHmac]
  rw [htag]
  decide +kernel

/-- A signature that is verified for two requests is of one second and one body, or HMAC gives
their bytes, which differ, one tag. -/
theorem one_signature {now' : Int} {body' : List UInt8} {t t' s : String}
    (h : verify hmac secret freshnessSeconds now body (some t) (some s) = true)
    (h' : verify hmac secret freshnessSeconds now' body' (some t') (some s) = true) :
    (t = t' ∧ body = body') ∨
      (signedBytes t body ≠ signedBytes t' body' ∧
        hmac.tag (bytesOf secret) (signedBytes t body) =
          hmac.tag (bytesOf secret) (signedBytes t' body')) := by
  obtain ⟨n, -, rfl, -, -, hs⟩ := verify_iff.mp h
  obtain ⟨m, -, rfl, -, -, hs'⟩ := verify_iff.mp h'
  by_cases hsame : signedBytes n.repr body = signedBytes m.repr body'
  · have hsigned : signedBytes (n : Int).repr body = signedBytes (m : Int).repr body' := hsame
    exact .inl (signedBytes_injective hsigned)
  · have htext := String.ofList_injective (hs.symm.trans hs')
    have htag : hmac.tag (bytesOf secret) (signedBytes n.repr body) =
        hmac.tag (bytesOf secret) (signedBytes m.repr body') := by
      rw [← Hex.decode_encode (hmac.tag _ (signedBytes n.repr body)), htext, Hex.decode_encode]
    exact .inr ⟨hsame, htag⟩

theorem one_signature_of_sampleHmac :
    ("1767225600" = "1767225600" ∧ ([123, 125] : List UInt8) = [123, 125]) ∨
      (signedBytes "1767225600" [123, 125] ≠ signedBytes "1767225600" [123, 125] ∧
        sampleHmac.tag (bytesOf sampleSecret) (signedBytes "1767225600" [123, 125]) =
          sampleHmac.tag (bytesOf sampleSecret) (signedBytes "1767225600" [123, 125])) :=
  one_signature (verify_sample 1767225601000 (by decide) (by decide))
    (verify_sample 1767225700000 (by decide) (by decide))

/-! ## Who sends an event -/

/-- The JSON of the two programs: `json.Marshal` of a body, and `JSON.parse` after the decoder of
`parsePayload`, where it does not throw. -/
structure Json where
  marshal : Body → List UInt8
  parse : List UInt8 → Option Controller.Intake.Wire

/-- The body is read as it was written; a number that is not a safe integer is rounded, to one
that is not either. -/
def Json.Reads (json : Json) (body : Body) : Prop :=
  ∀ w, json.parse (json.marshal body) = some w →
    w = wireOf body ∨ ∃ n ∈ w.chatSequence, Controller.maxSafeInteger < n

/-- A call of `Deliver` that has signed a body, and the second of its clock. -/
structure Signed where
  unix : Int
  notification : Notification
  body : Body
  payload : Bridge.Notify.payloadBytes notification = some body

/-- The bytes that the call has signed. -/
def Signed.message (r : Signed) (json : Json) : List UInt8 :=
  signedBytes r.unix.repr (json.marshal r.body)

/-- The request carries the tag of bytes that the bridge has signed at no time. -/
structure Forged (hmac : Hmac) (secret : String) (json : Json) (log : List Signed)
    (bytes : List UInt8) (req : Request) (t : String) : Prop where
  unsigned : ∀ r ∈ log, r.message json ≠ signedBytes t bytes
  timestamp : req.singleHeader "x-webhook-timestamp" = some t
  signature : req.singleHeader "x-webhook-signature-v2" =
    some (String.ofList (Hex.encode (hmac.tag (bytesOf secret) (signedBytes t bytes))))

theorem verified_headers {bytes : List UInt8} {req : Request}
    (h : verified hmac secret freshnessSeconds now bytes req = true) :
    ∃ t s, req.singleHeader "x-webhook-timestamp" = some t ∧
      req.singleHeader "x-webhook-signature-v2" = some s ∧
        verify hmac secret freshnessSeconds now bytes (some t) (some s) = true := by
  unfold verified createSignatureVerifier at h
  split at h
  · rw [Option.any_some] at h
    cases ht : req.singleHeader "x-webhook-timestamp" with
    | none =>
      rw [ht] at h
      cases h
    | some t =>
      cases hs : req.singleHeader "x-webhook-signature-v2" with
      | none =>
        rw [ht, hs] at h
        cases h
      | some s =>
        rw [ht, hs] at h
        exact ⟨t, s, rfl, rfl, h⟩
  · cases h

/-- Whoever sends a request, with whatever headers: an event that the controller takes from it
has the values of a notification that the bridge signed within the freshness, or the request
carries the tag of bytes that were never signed. -/
theorem admitted_authentic {json : Json} {log : List Signed} {http : HttpConfig}
    {policy : AdmissionPolicy} {cond : Conditions} {bytes : List UInt8} {req : Request}
    {event : NotificationV2}
    (hread : ∀ r ∈ log, json.Reads r.body)
    (hbody : req.body = json.parse bytes)
    (hcond : cond.verified = verified hmac secret freshnessSeconds now bytes req)
    (h : admitted http policy cond req = .ok event) :
    (∃ r ∈ log, Tells r.notification event ∧ (wireOf r.body).Of event ∧
        (now / 1000 - r.unix).natAbs ≤ freshnessSeconds) ∨
      ∃ t, Forged hmac secret json log bytes req t := by
  obtain ⟨t, s, ht, hs, hverify⟩ := verified_headers (hcond.symm.trans (admitted_verified h))
  obtain ⟨n, -, rfl, -, hfresh, rfl⟩ := verify_iff.mp hverify
  by_cases hsigned : ∃ r ∈ log, r.message json = signedBytes n.repr bytes
  · obtain ⟨r, hr, hmessage⟩ := hsigned
    have hbytes : signedBytes r.unix.repr (json.marshal r.body) = signedBytes (n : Int).repr bytes :=
      hmessage
    obtain ⟨hrepr, rfl⟩ := signedBytes_injective hbytes
    obtain ⟨w, hw, hof⟩ := parsePayload_ok (admitted_parse h)
    have hsafe := parsePayload_safe (admitted_parse h)
    obtain rfl | ⟨m, hm, hunsafe⟩ := hread r hr w (hbody.symm.trans hw)
    · refine .inl ⟨r, hr, tells_of_body r.payload hof, hof, ?_⟩
      rwa [eq_of_repr hrepr]
    · obtain rfl : m = event.chatSequence := Option.some.inj (hm.symm.trans hof.chatSequence)
      omega
  · exact .inr ⟨n.repr, fun r hr hmessage => hsigned ⟨r, hr, hmessage⟩, ht, hs⟩

/-! ### A request that is sent again -/

/-- The bytes that are signed for the sample notification. -/
def sampleBytes : List UInt8 := bytesOf <|
  "\x7b\"schema_version\":2,\"event_type\":\"whatsapp.message.received\"," ++
  "\"event_id\":\"01010101010101010101010101010101\",\"chat_jid\":\"15@lid\"," ++
  "\"canonical_chat_jid\":\"15@lid\",\"message_id\":\"M1\"," ++
  "\"event_timestamp\":\"1970-01-01T00:00:00.000001Z\"," ++
  "\"received_at\":\"1970-01-01T00:00:00.000002Z\",\"chat_sequence\":1," ++
  "\"sender_jid\":\"15@lid\",\"chat_kind\":\"operator_private\",\"is_from_me\":false\x7d"

/-- The call of `Deliver` for the sample notification. -/
def sampleSigned : Signed :=
  ⟨1700000000, sampleNotification, .v2
    { Bridge.Notify.payloadOf sampleNotification with
      canonicalChatJid := "15@lid", chatSequence := 1, senderJid := "15@lid", senderAltJid := ""
      chatKind := "operator_private", isFromMe := false }, rfl⟩

/-- JSON on the sample. -/
def sampleJson : Json where
  marshal body := if body = sampleSigned.body then sampleBytes else []
  parse bytes := if bytes = sampleBytes then some (wireOf sampleSigned.body) else none

/-- The tag of the signed bytes of the sample under the secret. -/
def sampleSignedTag : List UInt8 :=
  [218, 149, 105, 103, 185, 29, 205, 136, 249, 114, 182, 55, 156, 254, 187, 177, 115, 188, 208, 82, 8,
    199, 216, 106, 58, 225, 20, 10, 135, 103, 40, 51]

/-- HMAC with SHA-256 on the signed bytes of the sample. -/
def sampleSigner : Hmac where
  tag key message :=
    if key = bytesOf sampleSecret ∧ message = signedBytes "1700000000" sampleBytes then sampleSignedTag
    else List.replicate 32 0
  length_tag key message := by
    split
    · rfl
    · rfl

/-- The request, with its headers written otherwise. -/
def sampleReplay : Request where
  url := "/webhook"
  method := "POST"
  rawHeaders := [("x-webhook-timestamp", "1700000000"),
    ("x-webhook-signature-v2", "da956967b91dcd88f972b6379cfebbb173bcd05208c7d86a3ae1140a87672833"),
    ("x-request-id", "01010101010101010101010101010101"),
    ("content-type", "application/json; charset=utf-8")]
  body := some (wireOf sampleSigned.body)

theorem timestamp_sampleReplay :
    sampleReplay.singleHeader "x-webhook-timestamp" = some "1700000000" := by
  decide +kernel

theorem verified_sampleReplay :
    verified sampleSigner sampleSecret 300 1700000299999 sampleBytes sampleReplay = true := by
  have htag : sampleSigner.tag (bytesOf sampleSecret) (signedBytes "1700000000" sampleBytes) =
      sampleSignedTag := by simp [sampleSigner]
  have hverify : verify sampleSigner sampleSecret 300 1700000299999 sampleBytes (some "1700000000")
      (some "da956967b91dcd88f972b6379cfebbb173bcd05208c7d86a3ae1140a87672833") = true := by
    refine verify_iff.mpr ⟨1700000000, by decide, by decide +kernel, by decide, by decide, ?_⟩
    rw [htag]
    decide +kernel
  have hconfigured : configured sampleSecret 300 = true := by decide +kernel
  have hsignature : sampleReplay.singleHeader "x-webhook-signature-v2" =
      some "da956967b91dcd88f972b6379cfebbb173bcd05208c7d86a3ae1140a87672833" := by decide +kernel
  unfold verified createSignatureVerifier
  rw [timestamp_sampleReplay, hsignature, if_pos hconfigured, Option.any_some]
  exact hverify

/-- The bytes of the request were signed, so its event is that of the notification. -/
theorem admitted_authentic_of_sampleReplay :
    ∃ r ∈ [sampleSigned], Tells r.notification sampleEvent ∧ (wireOf r.body).Of sampleEvent ∧
      ((1700000299999 : Int) / 1000 - r.unix).natAbs ≤ 300 := by
  have hread : ∀ r ∈ [sampleSigned], sampleJson.Reads r.body := by
    intro r hr w hw
    obtain rfl := List.mem_singleton.mp hr
    have hparse : sampleJson.parse (sampleJson.marshal sampleSigned.body) =
        some (wireOf sampleSigned.body) := by simp [sampleJson]
    exact .inl (Option.some.inj (hw.symm.trans hparse))
  have hbody : sampleReplay.body = sampleJson.parse sampleBytes := by simp [sampleJson, sampleReplay]
  have hadmitted : admitted sampleSetting.http sampleSetting.policy sampleConditions sampleReplay =
      .ok sampleEvent := by decide +kernel
  rcases admitted_authentic hread hbody verified_sampleReplay.symm hadmitted with hsigned | ⟨t, hforged⟩
  · exact hsigned
  · obtain rfl : t = "1700000000" := Option.some.inj (hforged.timestamp.symm.trans timestamp_sampleReplay)
    have hmessage : sampleSigned.message sampleJson = signedBytes "1700000000" sampleBytes := by
      have hunix : sampleSigned.unix.repr = "1700000000" := by decide +kernel
      simp [Signed.message, sampleJson, hunix]
    exact absurd hmessage (hforged.unsigned _ (List.mem_singleton_self _))

end WhatsAppMcp.Delivery
