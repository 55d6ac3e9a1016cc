import Mathlib.Data.Bool.AllAny
import McpOps.Gateway.Models

/-!
# Signed tokens

`HmacJwtAuthenticator`: a token is three texts with dots between them, a header, a payload and a
signature over both.  Base64 is written out here; the digest and `json.loads` are parameters.

## Strategy

`ValidToken` says what a token has to be, without saying how that is checked.
`authenticate_cases` lists how an authentication ends, and each end belongs to one of the
properties of tokens:

* the token is refused at once, or it consists of three parts whose objects can be read or are
  nested too deeply (`splitToken_cases`, `decodeJson_cases`);
* its signature is not the digest, or is not all ASCII, which `compare_digest` does not take;
* its registered claims hold or not (`verifyRegisteredClaims_cases`), where a beginning that is no
  whole number is not looked at.

`TooDeep`, `ForeignSignature` and `LateFloat` name the three ways in which a token goes wrong, by
an exception that is no `AuthenticationFailed` or by being accepted too early.  The claims of a
token are determined (`Signed.unique`), so validity and the three can be read off the same parts,
and `authenticate_proper_iff` excludes exactly these.
-/

namespace McpOps

/-! ## Bytes and Base64 -/

abbrev Bytes := List UInt8

/-- `text.encode("utf-8")`. -/
def encodeUtf8 (text : String) : Bytes := text.toUTF8.data.toList

/-- The digits of the URL-safe Base64 alphabet. -/
def base64Alphabet : List Char :=
  "ABCDEFGHIJKLMNOPQRSTUVWXYZabcdefghijklmnopqrstuvwxyz0123456789-_".toList

/-- What a byte stands for in `urlsafe_b64decode`, which takes `+` and `/` for digits as well. -/
def base64Digit? (byte : UInt8) : Option ℕ :=
  let n := byte.toNat
  if 65 ≤ n ∧ n ≤ 90 then some (n - 65)
  else if 97 ≤ n ∧ n ≤ 122 then some (n - 71)
  else if 48 ≤ n ∧ n ≤ 57 then some (n + 4)
  else if n = 45 ∨ n = 43 then some 62
  else if n = 95 ∨ n = 47 then some 63
  else none

/-- The loop of `binascii.a2b_base64`, with the position in the group of four, the bits left over
from the last digit and the number of pads: bytes outside the alphabet are passed over, and a
group that is padded to its end ends the data. -/
def a2bBase64 : Bytes → (quad left pads : ℕ) → Option Bytes
  | [], quad, _, _ => if quad = 0 then some [] else none
  | byte :: rest, quad, left, pads =>
      if byte = 61 then
        if quad < 2 then a2bBase64 rest quad left pads
        else if 4 ≤ quad + (pads + 1) then some []
        else a2bBase64 rest quad left (pads + 1)
      else
        match base64Digit? byte, quad with
        | none, _ => a2bBase64 rest quad left pads
        | some digit, 0 => a2bBase64 rest 1 digit 0
        | some digit, 1 =>
            (a2bBase64 rest 2 (digit % 16) 0).map (.ofNat (left * 4 + digit / 16) :: ·)
        | some digit, 2 =>
            (a2bBase64 rest 3 (digit % 4) 0).map (.ofNat (left * 16 + digit / 4) :: ·)
        | some digit, _ => (a2bBase64 rest 0 0 0).map (.ofNat (left * 64 + digit) :: ·)

/-- `base64.urlsafe_b64decode(data)`, without a result where it raises `binascii.Error`. -/
def urlsafeB64decode (data : Bytes) : Option Bytes := a2bBase64 data 0 0 0

/-- `base64.urlsafe_b64encode(value).decode("ascii")`. -/
def urlsafeB64encode : Bytes → List Char
  | [] => []
  | [a] => [digit (a.toNat / 4), digit (a.toNat % 4 * 16), '=', '=']
  | [a, b] =>
      [digit (a.toNat / 4), digit (a.toNat % 4 * 16 + b.toNat / 16), digit (b.toNat % 16 * 4), '=']
  | a :: b :: c :: rest =>
      digit (a.toNat / 4) :: digit (a.toNat % 4 * 16 + b.toNat / 16) ::
        digit (b.toNat % 16 * 4 + c.toNat / 64) :: digit (c.toNat % 64) :: urlsafeB64encode rest
where
  digit (n : ℕ) : Char := base64Alphabet.getD n '='

/-- `_base64url(value)`. -/
def base64url (value : Bytes) : String :=
  String.ofList ((urlsafeB64encode value).reverse.dropWhile (· = '=')).reverse

/-- `_pad_base64(value)`. -/
def padBase64 (value : String) : Bytes :=
  encodeUtf8 (value ++ String.ofList (List.replicate ((4 - value.length % 4) % 4) '='))

/-- `text.isascii()`. -/
def isAscii (text : String) : Bool := text.toList.all fun c => c.toNat < 128

/-! ## The authenticator -/

/-- How `json.loads(data.decode("utf-8"))` ends. -/
inductive JsonOutcome where
  | value (v : Value)
  /-- a `ValueError`: no UTF-8, or no JSON -/
  | valueError
  /-- a `RecursionError`: nested too deeply -/
  | recursionError

/-- `AuthenticationFailed(message)`. -/
def authenticationFailed (message : String) : Exn := .gateway ⟨.authenticationFailed, message⟩

structure HmacJwtAuthenticator where
  issuer : String
  audience : String
  secret : Bytes
  /-- `hmac.new(secret, message, hashlib.sha256).digest()` -/
  hmacSha256 : (secret message : Bytes) → Bytes
  /-- `json.loads(data.decode("utf-8"))` -/
  jsonLoads : Bytes → JsonOutcome
  runtime : Runtime

/-- `isinstance(v, int)`, where a `bool` is an `int`. -/
def Value.int? : Value → Option ℤ
  | .int n => some n
  | .bool b => some (if b then 1 else 0)
  | _ => none

/-- `hmac.compare_digest(a, b)` of two texts. -/
def compareDigest (a b : String) : Except Exn Bool :=
  if isAscii a ∧ isAscii b then .ok (a = b)
  else .error (.other "TypeError" "comparing strings with non-ASCII characters is not supported")

/-- `_audience_matches(claim, expected)`. -/
def audienceMatches (claim : Option Value) (expected : String) : Bool :=
  match claim with
  | some (.str text) => text = expected
  | some (.list items) => items.any fun item => item.pyEq (.str expected)
  | _ => false

/-- `_verify_registered_claims(payload, ...)` with the clock at `now`, in whole seconds. -/
def verifyRegisteredClaims (payload : PyDict) (issuer audience : String) (now : ℤ) :
    Except Exn Unit :=
  if ¬ (payload.get? "iss").any (·.pyEq (.str issuer)) then
    .error (authenticationFailed "JWT issuer is invalid.")
  else if ¬ audienceMatches (payload.get? "aud") audience then
    .error (authenticationFailed "JWT audience is invalid.")
  else if ¬ ((payload.get? "exp").bind Value.int?).any (now < ·) then
    .error (authenticationFailed "JWT is expired.")
  else if ((payload.get? "nbf").bind Value.int?).any (now < ·) then
    .error (authenticationFailed "JWT is not valid yet.")
  else .ok ()

namespace HmacJwtAuthenticator

variable (J : HmacJwtAuthenticator)

/-- `_decode_json(encoded, section)`. -/
def decodeJson (encoded jwtSection : String) : Except Exn PyDict :=
  match urlsafeB64decode (padBase64 encoded) with
  | none => .error (authenticationFailed s!"JWT {jwtSection} is invalid.")
  | some decoded =>
      match J.jsonLoads decoded with
      | .value (.dict entries) => .ok entries
      | .value _ => .error (authenticationFailed s!"JWT {jwtSection} must be an object.")
      | .valueError => .error (authenticationFailed s!"JWT {jwtSection} is invalid.")
      | .recursionError => .error (.other "RecursionError" "maximum recursion depth exceeded")

/-- `_split_token(token)`. -/
def splitToken (token : String) : Except Exn (PyDict × PyDict × String) :=
  match (token.toList.splitOn '.').map String.ofList with
  | [first, second, signature] => do
      let header ← J.decodeJson first "header"
      let payload ← J.decodeJson second "payload"
      .ok (header, payload, signature)
  | _ => .error (authenticationFailed "JWT must contain header, payload, and signature.")

/-- `token.rsplit(".", maxsplit=1)[0]` of a token with a dot in it. -/
def signingInput (token : String) : String :=
  String.ofList (token.toList.reverse.dropWhile (· ≠ '.')).tail.reverse

/-- `_verify_signature(token, secret, signature)`. -/
def verifySignature (token signature : String) : Except Exn Unit := do
  let expected := base64url (J.hmacSha256 J.secret (encodeUtf8 (signingInput token)))
  let verified ← compareDigest expected signature
  if verified then .ok () else .error (authenticationFailed "JWT signature is invalid.")

/-- The `try` block of `authenticate`, without a result where it raises `KeyError` or
`ValueError`. -/
def principal? (payload : PyDict) : Option Principal := do
  let role ← Role.ofValue? (J.runtime.str (← payload.get? "role"))
  let principalType ← match payload.get? "principal_type" with
    | none => some .human
    | some v => PrincipalType.ofValue? (J.runtime.str v)
  let sub ← payload.get? "sub"
  some { principalId := J.runtime.str sub, role, principalType }

/-- The end of `authenticate`. -/
def principalOf (payload : PyDict) : Except Exn Principal :=
  match J.principal? payload with
  | some principal => .ok principal
  | none => .error (authenticationFailed "JWT principal claims are invalid.")

/-- `authenticate(token)` with the clock at `now`. -/
def authenticate (token : String) (now : ℤ) : Except Exn Principal := do
  let (header, payload, signature) ← J.splitToken token
  if ¬ (header.get? "alg").any (·.pyEq (.str "HS256")) ∨
      ¬ (header.get? "typ").any (·.pyEq (.str "JWT")) then
    .error (authenticationFailed "JWT header is not supported.")
  else do
    J.verifySignature token signature
    verifyRegisteredClaims payload J.issuer J.audience now
    J.principalOf payload

end HmacJwtAuthenticator

/-! ## Texts -/

theorem Value.pyEq_str_iff {v : Value} {text : String} : v.pyEq (.str text) ↔ v = .str text := by
  cases v with
  | str s => simp [Value.pyEq]
  | _ => simp [Value.pyEq, Value.numberEq, Value.number?]

theorem any_pyEq_str_iff {v : Option Value} {text : String} :
    v.any (·.pyEq (.str text)) ↔ v = some (.str text) := by
  cases v with
  | none => simp
  | some v => simp [Value.pyEq_str_iff]

theorem isAscii_base64url (value : Bytes) : isAscii (base64url value) := by
  have hdigit : ∀ n, (urlsafeB64encode.digit n).toNat < 128 := by
    intro n
    have hall : ∀ c ∈ base64Alphabet, c.toNat < 128 := List.all_iff_forall_prop.mp rfl
    unfold urlsafeB64encode.digit
    rw [List.getD_eq_getElem?_getD]
    cases hget : base64Alphabet[n]? with
    | none => decide
    | some c => exact hall c (List.mem_of_getElem? hget)
  have hencode : ∀ c ∈ urlsafeB64encode value, c.toNat < 128 := by
    fun_induction urlsafeB64encode value with
    | case1 => simp
    | case2 => simp [hdigit]
    | case3 => simp [hdigit]
    | case4 a b c rest ih =>
        simp only [List.mem_cons, forall_eq_or_imp]
        exact ⟨hdigit _, hdigit _, hdigit _, hdigit _, ih⟩
  refine List.all_eq_true.mpr fun c hc => decide_eq_true (hencode c ?_)
  rw [base64url, String.toList_ofList, List.mem_reverse] at hc
  exact List.mem_reverse.mp ((List.dropWhile_sublist _).subset hc)

/-- The token consists of three texts with dots between them. -/
def Splits (token first second signature : String) : Prop :=
  (token.toList.splitOn '.').map String.ofList = [first, second, signature]

theorem not_mem_of_mem_splitOn {α : Type} [BEq α] [LawfulBEq α] {a : α} {l part : List α}
    (h : part ∈ l.splitOn a) : a ∉ part := by
  induction l generalizing part with
  | nil =>
      rw [List.splitOn_nil, List.mem_singleton] at h
      exact h ▸ List.not_mem_nil
  | cons x rest ih =>
      rw [List.splitOn_cons_eq_if_modifyHead] at h
      split at h
      · rcases List.mem_cons.mp h with rfl | h
        · exact List.not_mem_nil
        · exact ih h
      · rename_i hne
        have hx : a ≠ x := fun heq => hne (heq ▸ beq_self_eq_true a)
        obtain ⟨head, tail, hsplit⟩ := List.exists_cons_of_ne_nil (List.splitOn_ne_nil a rest)
        rw [hsplit, List.modifyHead_cons] at h
        rcases List.mem_cons.mp h with rfl | h
        · have hhead : a ∉ head := ih (hsplit ▸ List.mem_cons_self ..)
          exact fun hmem => (List.mem_cons.mp hmem).elim hx hhead
        · exact ih (hsplit ▸ List.mem_cons_of_mem _ h)

/-- What stands before the last dot of three texts are the first two. -/
theorem Splits.signingInput {token first second signature : String}
    (h : Splits token first second signature) :
    HmacJwtAuthenticator.signingInput token = first ++ "." ++ second := by
  have hparts : token.toList.splitOn '.' = [first.toList, second.toList, signature.toList] := by
    have := congrArg (List.map String.toList) h
    simpa [Function.comp_def] using this
  have hsignature : '.' ∉ signature.toList :=
    not_mem_of_mem_splitOn (hparts ▸ by simp : signature.toList ∈ token.toList.splitOn '.')
  have htoken : token.toList = first.toList ++ '.' :: second.toList ++ '.' :: signature.toList := by
    have hjoined : ['.'].intercalate (token.toList.splitOn '.') = token.toList :=
      List.intercalate_splitOn '.'
    rw [hparts] at hjoined
    simpa [List.intercalate] using hjoined.symm
  have hreverse : token.toList.reverse.dropWhile (· ≠ '.') =
      '.' :: (first.toList ++ '.' :: second.toList).reverse := by
    rw [htoken, List.reverse_append, List.reverse_cons, List.append_assoc,
      List.dropWhile_append_of_pos]
    · simp
    · intro c hc
      exact decide_eq_true fun heq => hsignature (heq ▸ List.mem_reverse.mp hc)
  rw [HmacJwtAuthenticator.signingInput, hreverse, List.tail_cons, List.reverse_reverse]
  simp [String.ext_iff]

/-! ## What a token has to be -/

namespace HmacJwtAuthenticator

variable (J : HmacJwtAuthenticator)

/-- The text is the Base64 of a JSON object. -/
def Reads (encoded : String) (entries : PyDict) : Prop :=
  ∃ decoded, urlsafeB64decode (padBase64 encoded) = some decoded ∧
    J.jsonLoads decoded = .value (.dict entries)

/-- The text is the Base64 of JSON that is nested too deeply to be read. -/
def ReadsTooDeep (encoded : String) : Prop :=
  ∃ decoded, urlsafeB64decode (padBase64 encoded) = some decoded ∧
    J.jsonLoads decoded = .recursionError

/-- The token has three parts, of which the first says HS256 and JWT, and the second holds the
claims. -/
structure Presents (token first second signature : String) (header payload : PyDict) : Prop where
  splits : Splits token first second signature
  readsHeader : J.Reads first header
  readsPayload : J.Reads second payload
  algorithm : header.get? "alg" = some (.str "HS256")
  type : header.get? "typ" = some (.str "JWT")

/-- The token carries the digest of its header and its claims under the secret. -/
def Signed (token : String) (payload : PyDict) : Prop :=
  ∃ first second signature header, J.Presents token first second signature header payload ∧
    signature = base64url (J.hmacSha256 J.secret (encodeUtf8 (first ++ "." ++ second)))

/-- The claims are of this issuer, for this audience and not yet expired. -/
structure Current (payload : PyDict) (now : ℤ) : Prop where
  issuer : payload.get? "iss" = some (.str J.issuer)
  audience : payload.get? "aud" = some (.str J.audience) ∨
    ∃ items, payload.get? "aud" = some (.list items) ∧ .str J.audience ∈ items
  expiry : ∃ claim x, payload.get? "exp" = some claim ∧ claim.number? = some x ∧
    (PyFloat.finite now).lt x

/-- The token is valid at `now`: it is signed and current, and no numeric `nbf` is later. -/
def ValidToken (token : String) (now : ℤ) : Prop :=
  ∃ payload, J.Signed token payload ∧ J.Current payload now ∧
    ∀ claim x, payload.get? "nbf" = some claim → claim.number? = some x →
      (PyFloat.finite now).lt x = false

/-! ### What goes wrong -/

/-- The header, or the payload of a token with a readable header, is nested too deeply. -/
def TooDeep (token : String) : Prop :=
  ∃ first second signature, Splits token first second signature ∧
    (J.ReadsTooDeep first ∨ ∃ header, J.Reads first header ∧ J.ReadsTooDeep second)

/-- The signature of a token with a supported header is not all ASCII. -/
def ForeignSignature (token : String) : Prop :=
  ∃ first second signature header payload,
    J.Presents token first second signature header payload ∧ isAscii signature = false

/-- Only its `nbf`, a float that is later than `now`, speaks against the token. -/
def LateFloat (token : String) (now : ℤ) : Prop :=
  ∃ payload x, J.Signed token payload ∧ J.Current payload now ∧
    ((payload.get? "exp").bind Value.int?).isSome ∧ (J.principal? payload).isSome ∧
      payload.get? "nbf" = some (.float x) ∧ (PyFloat.finite now).lt x

/-! ## The parts of a token -/

variable {J}

theorem decodeJson_of_reads {encoded jwtSection : String} {entries : PyDict}
    (h : J.Reads encoded entries) : J.decodeJson encoded jwtSection = .ok entries := by
  obtain ⟨decoded, hdecoded, hvalue⟩ := h
  simp only [decodeJson, hdecoded, hvalue]

theorem decodeJson_of_readsTooDeep {encoded jwtSection : String} (h : J.ReadsTooDeep encoded) :
    J.decodeJson encoded jwtSection =
      .error (.other "RecursionError" "maximum recursion depth exceeded") := by
  obtain ⟨decoded, hdecoded, hvalue⟩ := h
  simp only [decodeJson, hdecoded, hvalue]

/-- A text that is no Base64 of an object fails the authentication, unless it is nested too
deeply. -/
theorem decodeJson_cases (encoded jwtSection : String) :
    (∃ entries, J.Reads encoded entries) ∨ J.ReadsTooDeep encoded ∨
      ∃ message, J.decodeJson encoded jwtSection = .error (authenticationFailed message) := by
  unfold decodeJson
  split
  · exact .inr (.inr ⟨_, rfl⟩)
  · rename_i decoded hdecoded
    split
    · exact .inl ⟨_, decoded, hdecoded, ‹_›⟩
    · exact .inr (.inr ⟨_, rfl⟩)
    · exact .inr (.inr ⟨_, rfl⟩)
    · exact .inr (.inl ⟨decoded, hdecoded, ‹_›⟩)

theorem splitToken_of_splits {token first second signature : String}
    (h : Splits token first second signature) :
    J.splitToken token = (do
      let header ← J.decodeJson first "header"
      let payload ← J.decodeJson second "payload"
      .ok (header, payload, signature)) := by
  unfold splitToken
  rw [h]

/-- The refusals of `authenticate`. -/
def Refused {α : Type} (result : Except Exn α) : Prop :=
  ∃ message, result = .error (authenticationFailed message)

theorem refused (message : String) {α : Type} :
    Refused (.error (authenticationFailed message) : Except Exn α) := ⟨message, rfl⟩

theorem Refused.bind {α β : Type} {result : Except Exn α} (h : Refused result)
    (f : α → Except Exn β) : Refused (result >>= f) := by
  obtain ⟨message, rfl⟩ := h
  exact ⟨message, rfl⟩

/-- A token that is not refused at once consists of three parts, and its objects can be read, or
are nested too deeply. -/
theorem splitToken_cases (token : String) :
    (∃ first second signature header payload, Splits token first second signature ∧
      J.Reads first header ∧ J.Reads second payload) ∨
    J.TooDeep token ∨ Refused (J.splitToken token) := by
  by_cases hsplits : ∃ first second signature, Splits token first second signature
  · obtain ⟨first, second, signature, hsplits⟩ := hsplits
    rcases J.decodeJson_cases first "header" with ⟨header, hheader⟩ | hdeep | hrefused
    · rcases J.decodeJson_cases second "payload" with ⟨payload, hpayload⟩ | hdeep | hrefused
      · exact .inl ⟨first, second, signature, header, payload, hsplits, hheader, hpayload⟩
      · exact .inr (.inl ⟨first, second, signature, hsplits, .inr ⟨header, hheader, hdeep⟩⟩)
      · rw [splitToken_of_splits hsplits, decodeJson_of_reads hheader]
        exact .inr (.inr (Refused.bind hrefused _))
    · exact .inr (.inl ⟨first, second, signature, hsplits, .inl hdeep⟩)
    · rw [splitToken_of_splits hsplits]
      exact .inr (.inr (Refused.bind hrefused _))
  · refine .inr (.inr ?_)
    unfold splitToken
    split
    · exact absurd ⟨_, _, _, ‹_›⟩ hsplits
    · exact refused _

theorem authenticate_of_tooDeep {token : String} (h : J.TooDeep token) (now : ℤ) :
    J.authenticate token now =
      .error (.other "RecursionError" "maximum recursion depth exceeded") := by
  obtain ⟨first, second, signature, hsplits, hdeep | ⟨header, hheader, hdeep⟩⟩ := h
  · rw [authenticate, splitToken_of_splits hsplits, decodeJson_of_readsTooDeep hdeep]
    rfl
  · rw [authenticate, splitToken_of_splits hsplits, decodeJson_of_reads hheader]
    change (J.decodeJson second "payload" >>= _ >>= _) = _
    rw [decodeJson_of_readsTooDeep hdeep]
    rfl

/-! ## The checks -/

theorem verifySignature_of_splits {token first second signature : String}
    (h : Splits token first second signature) :
    J.verifySignature token signature =
      if isAscii signature then
        if base64url (J.hmacSha256 J.secret (encodeUtf8 (first ++ "." ++ second))) = signature then
          .ok ()
        else .error (authenticationFailed "JWT signature is invalid.")
      else .error (.other "TypeError"
        "comparing strings with non-ASCII characters is not supported") := by
  unfold verifySignature compareDigest
  rw [h.signingInput]
  simp only [isAscii_base64url, true_and]
  split
  · by_cases heq :
        base64url (J.hmacSha256 J.secret (encodeUtf8 (first ++ "." ++ second))) = signature
    · rw [if_pos heq]
      simp [bind, Except.bind, heq]
    · rw [if_neg heq]
      simp [bind, Except.bind, heq]
  · rfl

theorem audienceMatches_iff {claim : Option Value} {expected : String} :
    audienceMatches claim expected ↔ claim = some (.str expected) ∨
      ∃ items, claim = some (.list items) ∧ .str expected ∈ items := by
  unfold audienceMatches
  split
  · simp
  · rename_i items
    simp only [List.any_eq_true, Value.pyEq_str_iff]
    simp
  · rename_i hstr hlist
    refine iff_of_false Bool.false_ne_true ?_
    rintro (h | ⟨items, h, -⟩)
    · exact hstr _ h
    · exact hlist _ h

theorem number?_of_int? {claim : Value} {n : ℤ} (h : claim.int? = some n) :
    claim.number? = some (.finite n) := by
  cases claim with
  | int m => cases h; rfl
  | bool b => cases h; cases b <;> rfl
  | _ => cases h

theorem lt_finite {m n : ℤ} : (PyFloat.finite m).lt (.finite n) ↔ m < n :=
  decide_eq_true_iff.trans Rat.intCast_lt_intCast

/-- The registered claims hold when they are current, with a whole number for the expiry and no
whole number for a later beginning. -/
theorem verifyRegisteredClaims_cases (payload : PyDict) (now : ℤ) :
    Refused (verifyRegisteredClaims payload J.issuer J.audience now) ∨
      verifyRegisteredClaims payload J.issuer J.audience now = .ok () ∧ J.Current payload now ∧
        ((payload.get? "exp").bind Value.int?).isSome ∧
          ∀ n, (payload.get? "nbf").bind Value.int? = some n → n ≤ now := by
  unfold verifyRegisteredClaims
  split
  · exact .inl (refused _)
  · rename_i hissuer
    split
    · exact .inl (refused _)
    · rename_i haudience
      split
      · exact .inl (refused _)
      · rename_i hexpiry
        split
        · exact .inl (refused _)
        · rename_i hnbf
          obtain ⟨n, hn, hlater⟩ := (Option.any_eq_true _ _).mp (not_not.mp hexpiry)
          obtain ⟨claim, hclaim, hint⟩ := Option.bind_eq_some_iff.mp hn
          refine .inr ⟨rfl, ⟨?_, audienceMatches_iff.mp (not_not.mp haudience), claim, .finite n,
            hclaim, number?_of_int? hint, lt_finite.mpr (of_decide_eq_true hlater)⟩,
            hn ▸ rfl, fun m hm => ?_⟩
          · exact any_pyEq_str_iff.mp (not_not.mp hissuer)
          · rw [hm, Option.any_some, decide_eq_true_eq] at hnbf
            exact Int.not_lt.mp hnbf

/-- A beginning that is no whole number is not looked at. -/
theorem verifyRegisteredClaims_of_current {payload : PyDict} {now : ℤ} (h : J.Current payload now)
    (hexpiry : ((payload.get? "exp").bind Value.int?).isSome)
    (hnbf : (payload.get? "nbf").bind Value.int? = none) :
    verifyRegisteredClaims payload J.issuer J.audience now = .ok () := by
  obtain ⟨hissuer, haudience, claim, x, hclaim, hx, hlater⟩ := h
  obtain ⟨n, hn⟩ := Option.isSome_iff_exists.mp hexpiry
  have hint : claim.int? = some n := by rwa [hclaim] at hn
  have hx' : x = .finite n := Option.some.inj (hx.symm.trans (number?_of_int? hint))
  have hlater' : now < n := lt_finite.mp (hx' ▸ hlater)
  unfold verifyRegisteredClaims
  rw [if_neg (not_not_intro (any_pyEq_str_iff.mpr hissuer)),
    if_neg (not_not_intro (audienceMatches_iff.mpr haudience)), hn, hnbf, Option.any_some,
    if_neg (not_not_intro (decide_eq_true hlater')), Option.any_none, if_neg Bool.false_ne_true]

/-- `authenticate` once the parts of the token are read. -/
theorem authenticate_of_reads {token first second signature : String} {header payload : PyDict}
    (hsplits : Splits token first second signature) (hheader : J.Reads first header)
    (hpayload : J.Reads second payload) (now : ℤ) :
    J.authenticate token now =
      (if ¬ (header.get? "alg").any (·.pyEq (.str "HS256")) ∨
          ¬ (header.get? "typ").any (·.pyEq (.str "JWT")) then
        .error (authenticationFailed "JWT header is not supported.")
      else do
        J.verifySignature token signature
        verifyRegisteredClaims payload J.issuer J.audience now
        J.principalOf payload) := by
  rw [authenticate, splitToken_of_splits hsplits, decodeJson_of_reads hheader,
    decodeJson_of_reads hpayload]
  rfl

theorem principalOf_cases (payload : PyDict) :
    Refused (J.principalOf payload) ∨
      (J.principal? payload).isSome ∧ ∃ principal, J.principalOf payload = .ok principal := by
  unfold principalOf
  cases J.principal? payload with
  | none => exact .inl (refused _)
  | some principal => exact .inr ⟨rfl, principal, rfl⟩

/-- What `authenticate` does with a token that presents claims under a supported header. -/
theorem authenticate_of_presents {token first second signature : String} {header payload : PyDict}
    (h : J.Presents token first second signature header payload) (now : ℤ) :
    J.authenticate token now = (do
      J.verifySignature token signature
      verifyRegisteredClaims payload J.issuer J.audience now
      J.principalOf payload) := by
  rw [authenticate_of_reads h.splits h.readsHeader h.readsPayload, if_neg]
  rw [h.algorithm, h.type]
  simp [Value.pyEq_str_iff]

/-- A token with claims that are signed is accepted when they hold. -/
theorem authenticate_of_signed {token : String} {payload : PyDict} (h : J.Signed token payload)
    (now : ℤ) :
    J.authenticate token now = (do
      verifyRegisteredClaims payload J.issuer J.audience now
      J.principalOf payload) := by
  obtain ⟨first, second, signature, header, hpresents, rfl⟩ := h
  rw [authenticate_of_presents hpresents, verifySignature_of_splits hpresents.splits,
    if_pos (isAscii_base64url _), if_pos rfl]
  rfl

/-- How an authentication ends. -/
theorem authenticate_cases (token : String) (now : ℤ) :
    Refused (J.authenticate token now) ∨ J.TooDeep token ∨ J.ForeignSignature token ∨
      ∃ payload principal, J.authenticate token now = .ok principal ∧ J.Signed token payload ∧
        J.Current payload now ∧ ((payload.get? "exp").bind Value.int?).isSome ∧
          (J.principal? payload).isSome ∧
            ∀ n, (payload.get? "nbf").bind Value.int? = some n → n ≤ now := by
  rcases J.splitToken_cases token with ⟨first, second, signature, header, payload, hsplits, hheader,
    hpayload⟩ | hdeep | hrefused
  · -- the parts are read; what is checked next is the header, then the signature, then the claims
    by_cases hsupported : header.get? "alg" = some (.str "HS256") ∧
        header.get? "typ" = some (.str "JWT")
    · have hpresents : J.Presents token first second signature header payload :=
        ⟨hsplits, hheader, hpayload, hsupported.1, hsupported.2⟩
      cases hascii : isAscii signature with
      | false =>
          exact .inr (.inr (.inl ⟨first, second, signature, header, payload, hpresents, hascii⟩))
      | true =>
          by_cases hsigned :
              base64url (J.hmacSha256 J.secret (encodeUtf8 (first ++ "." ++ second))) = signature
          · have hsigned' : J.Signed token payload :=
              ⟨first, second, signature, header, hpresents, hsigned.symm⟩
            rw [authenticate_of_signed hsigned']
            rcases J.verifyRegisteredClaims_cases payload now with
              hrefused | ⟨hok, hcurrent, hexpiry, hnbf⟩
            · exact .inl (hrefused.bind _)
            · rcases J.principalOf_cases payload with hrefused | ⟨hsome, principal, hprincipal⟩
              · rw [hok]
                exact .inl hrefused
              · rw [hok]
                exact .inr (.inr (.inr ⟨payload, principal, hprincipal, hsigned', hcurrent, hexpiry,
                  hsome, hnbf⟩))
          · -- the signature is that of other data
            rw [authenticate_of_presents hpresents, verifySignature_of_splits hsplits,
              if_pos hascii, if_neg hsigned]
            exact .inl ((refused _).bind _)
    · rw [authenticate_of_reads hsplits hheader hpayload, if_pos]
      · exact .inl (refused _)
      · rw [any_pyEq_str_iff, any_pyEq_str_iff]
        exact not_and_or.mp hsupported
  · exact .inr (.inl hdeep)
  · exact .inl (hrefused.bind _)

theorem authenticate_of_foreignSignature {token : String} (h : J.ForeignSignature token)
    (now : ℤ) : J.authenticate token now = .error
      (.other "TypeError" "comparing strings with non-ASCII characters is not supported") := by
  obtain ⟨first, second, signature, header, payload, hpresents, hascii⟩ := h
  rw [authenticate_of_presents hpresents, verifySignature_of_splits hpresents.splits, if_neg]
  · rfl
  · rw [hascii]
    exact Bool.false_ne_true

theorem authenticate_of_lateFloat {token : String} {payload : PyDict} {now : ℤ} {x : PyFloat}
    (hsigned : J.Signed token payload) (hcurrent : J.Current payload now)
    (hexpiry : ((payload.get? "exp").bind Value.int?).isSome)
    (hprincipal : (J.principal? payload).isSome) (hnbf : payload.get? "nbf" = some (.float x)) :
    ∃ principal, J.authenticate token now = .ok principal := by
  have hok := verifyRegisteredClaims_of_current hcurrent hexpiry (by rw [hnbf]; rfl)
  obtain ⟨principal, hprincipal⟩ := Option.isSome_iff_exists.mp hprincipal
  refine ⟨principal, ?_⟩
  rw [authenticate_of_signed hsigned, hok, principalOf, hprincipal]
  rfl

theorem Reads.unique {encoded : String} {entries entries' : PyDict} (h : J.Reads encoded entries)
    (h' : J.Reads encoded entries') : entries = entries' := by
  have hread : J.decodeJson encoded "payload" = .ok entries := decodeJson_of_reads h
  exact Except.ok.inj (hread.symm.trans (decodeJson_of_reads h'))

/-- The claims of a token are determined. -/
theorem Signed.unique {token : String} {payload payload' : PyDict} (h : J.Signed token payload)
    (h' : J.Signed token payload') : payload = payload' := by
  obtain ⟨first, second, signature, header, hpresents, -⟩ := h
  obtain ⟨first', second', signature', header', hpresents', -⟩ := h'
  have hsplits := hpresents.splits.symm.trans hpresents'.splits
  obtain ⟨-, hsecond, -⟩ : first = first' ∧ second = second' ∧ signature = signature' := by
    simpa using hsplits
  exact hpresents.readsPayload.unique (hsecond ▸ hpresents'.readsPayload)

/-- A numeric claim that is no float is a whole number. -/
theorem int?_of_number? {claim : Value} {x : PyFloat} (h : claim.number? = some x) :
    claim = .float x ∨ ∃ n : ℤ, claim.int? = some n ∧ x = .finite n := by
  cases claim with
  | int n => cases h; exact .inr ⟨n, rfl, rfl⟩
  | bool b => cases h; cases b <;> exact .inr ⟨_, rfl, rfl⟩
  | float y => cases h; exact .inl rfl
  | _ => cases h

/-- An authentication gives a principal for valid tokens only, and fails with
`AuthenticationFailed` for every other, if and only if neither the nesting of the token nor a
character of its signature makes another exception of it, and no `nbf` that is a float is all that
speaks against it. -/
theorem authenticate_proper_iff (J : HmacJwtAuthenticator) (token : String) (now : ℤ) :
    ((∀ principal, J.authenticate token now = .ok principal → J.ValidToken token now) ∧
        ∀ e, J.authenticate token now = .error e → ∃ message, e = authenticationFailed message) ↔
      ¬ (J.TooDeep token ∨ J.ForeignSignature token ∨ J.LateFloat token now) := by
  constructor
  · rintro ⟨hvalid, hrefuses⟩ (hdeep | hforeign | ⟨payload, x, hlate⟩)
    · obtain ⟨message, heq⟩ := hrefuses _ (authenticate_of_tooDeep hdeep now)
      cases heq
    · obtain ⟨message, heq⟩ := hrefuses _ (authenticate_of_foreignSignature hforeign now)
      cases heq
    · obtain ⟨hsigned, hcurrent, hexpiry, hsome, hnbf, hlater⟩ := hlate
      obtain ⟨principal, hprincipal⟩ :=
        authenticate_of_lateFloat hsigned hcurrent hexpiry hsome hnbf
      obtain ⟨payload', hsigned', -, hnotLater⟩ := hvalid principal hprincipal
      -- a token has one payload, and a token that is valid is not late
      rw [hsigned'.unique hsigned] at hnotLater
      exact Bool.false_ne_true ((hnotLater _ _ hnbf rfl).symm.trans hlater)
  · intro hgood
    rcases J.authenticate_cases token now with ⟨message, hrefused⟩ | hdeep | hforeign |
      ⟨payload, principal, hok, hsigned, hcurrent, hexpiry, hsome, hnbf⟩
    · rw [hrefused]
      refine ⟨fun principal h => ?_, fun e h => ?_⟩
      · cases h
      · cases h
        exact ⟨message, rfl⟩
    · exact absurd (.inl hdeep) hgood
    · exact absurd (.inr (.inl hforeign)) hgood
    · rw [hok]
      refine ⟨fun principal _ => ⟨payload, hsigned, hcurrent, fun claim x hclaim hx => ?_⟩,
        fun e h => ?_⟩
      swap
      · cases h
      refine Bool.eq_false_iff.mpr fun hlater => ?_
      -- an integer is checked by the code itself; only a float can be late
      rcases int?_of_number? hx with rfl | ⟨n, hn, rfl⟩
      · exact hgood (.inr (.inr ⟨payload, x, hsigned, hcurrent, hexpiry, hsome, hclaim, hlater⟩))
      · have hle := hnbf n (by rw [hclaim]; exact hn)
        exact absurd (lt_finite.mp hlater) (Int.not_lt.mpr hle)

/-- A token with an empty payload and a signature that is not all ASCII. -/
def foreignToken : String := "eyJhbGciOiJIUzI1NiIsInR5cCI6IkpXVCJ9.e30.é"

/-- An authenticator that can read the header and the payload of that token. -/
def small : HmacJwtAuthenticator where
  issuer := "http://localhost:8000"
  audience := "mcp-engineering-ops"
  secret := encodeUtf8 "secret"
  hmacSha256 _ message := message
  jsonLoads decoded :=
    if decoded = encodeUtf8 "\x7b\"alg\":\"HS256\",\"typ\":\"JWT\"\x7d" then
      .value (.dict [("alg", .str "HS256"), ("typ", .str "JWT")])
    else if decoded = encodeUtf8 "\x7b\x7d" then .value (.dict [])
    else .valueError
  runtime := .plain

/-- The comparison of the signatures raises a `TypeError`. -/
theorem foreignToken_escapes :
    ¬ ∀ (J : HmacJwtAuthenticator) (token : String) (now : ℤ),
      (∀ principal, J.authenticate token now = .ok principal → J.ValidToken token now) ∧
        ∀ e, J.authenticate token now = .error e → ∃ message, e = authenticationFailed message := by
  intro hclaim
  have hescapes : small.authenticate foreignToken 0 = .error
      (.other "TypeError" "comparing strings with non-ASCII characters is not supported") := by
    rfl
  obtain ⟨message, heq⟩ := (hclaim small foreignToken 0).2 _ hescapes
  cases heq

end HmacJwtAuthenticator

end McpOps
