import AutoPR.Library.Strip
import AutoPR.Webhook.Admission

/-! What the two credential checks accept. Both end in a comparison that takes ASCII texts only
and raises at any other, and the bearer check strips what the header says but not the token
that it expects. -/
namespace AutoPR.Webhook
open Python

def isAscii (s : String) : Bool := s.toList.all (·.toNat < 128)

def compareDigest (a b : String) : Py Bool :=
  if isAscii a && isAscii b then pure (a = b) else throw .typeError

def bearerPrefix : String := "Bearer "

def providedToken (header : String) : String := strip (String.ofList (header.toList.drop 7))

def verifyBearerToken (expected : String) (header : Option String) : Py Bool :=
  if expected = "" then pure false
  else match header with
    | none => pure false
    | some header =>
        if !bearerPrefix.toList.isPrefixOf header.toList then pure false
        else if providedToken header = "" then pure false
        else compareDigest expected (providedToken header)

theorem verifySignature_eq_compareDigest {plat : Platform} {secret header : String} {body : Bytes}
    (hdigest : isAscii (plat.hmacSha256 secret body) = true)
    (hstarts : signaturePrefix.toList.isPrefixOf header.toList = true) :
    verifySignature plat secret body (some header) =
      compareDigest (signaturePrefix ++ plat.hmacSha256 secret body) header := by
  have hexpected : isAscii (signaturePrefix ++ plat.hmacSha256 secret body) = true := by
    unfold isAscii at hdigest ⊢
    rw [String.toList_append, List.all_append, hdigest, Bool.and_true]
    decide
  unfold verifySignature compareDigest
  dsimp only
  rw [hstarts, hexpected, Bool.true_and]
  rfl

def SignatureExact (plat : Platform) (secret : String) (body : Bytes) (header : Option String) :
    Prop :=
  verifySignature plat secret body header =
    .ok (header = some (signaturePrefix ++ plat.hmacSha256 secret body))

/-- The header is not compared, or it is ASCII. -/
def signatureComparable (header : Option String) : Bool :=
  header.all fun header =>
    !signaturePrefix.toList.isPrefixOf header.toList || isAscii header

theorem signatureExact_iff {plat : Platform} {secret : String} {body : Bytes}
    {header : Option String} :
    SignatureExact plat secret body header ↔ signatureComparable header = true := by
  unfold SignatureExact verifySignature signatureComparable isAscii
  cases header with
  | none => exact iff_of_true rfl rfl
  | some header =>
    dsimp only
    rw [Option.all_some]
    cases hstarts : signaturePrefix.toList.isPrefixOf header.toList with
    | false =>
      apply iff_of_true _ rfl
      have hne : header ≠ signaturePrefix ++ plat.hmacSha256 secret body := by
        rintro rfl
        have htrue : signaturePrefix.toList.isPrefixOf
            (signaturePrefix ++ plat.hmacSha256 secret body).toList = true := by
          rw [String.toList_append]
          exact List.isPrefixOf_iff_prefix.mpr (List.prefix_append _ _)
        rw [htrue] at hstarts
        cases hstarts
      simp [hne]
      rfl
    | true =>
      cases hascii : header.toList.all (·.toNat < 128) with
      | false =>
        apply iff_of_false _ Bool.false_ne_true
        intro h
        cases h
      | true =>
        apply iff_of_true _ rfl
        simp [eq_comm]
        rfl

/-- The header is the prefix and the token, up to white space around the token. -/
def Presents (token : String) (header : Option String) : Prop :=
  ∃ front back, header = some (String.ofList (bearerPrefix.toList ++ (front ++ (token.toList ++ back)))) ∧
    (∀ c ∈ front, isSpace c = true) ∧ ∀ c ∈ back, isSpace c = true

/-- True for the headers that present the token, and false for every other. -/
def BearerExact (token : String) (header : Option String) : Prop :=
  (verifyBearerToken token header = .ok true ∧ Presents token header) ∨
    (verifyBearerToken token header = .ok false ∧ ¬ Presents token header)

/-- Nothing is compared, or both texts are ASCII. -/
def bearerComparable (token : String) (header : Option String) : Bool :=
  header.all fun header =>
    !bearerPrefix.toList.isPrefixOf header.toList || providedToken header = "" ||
      (isAscii token && isAscii (providedToken header))

theorem providedToken_of_presents {token : String} {front back : List Char} :
    providedToken (String.ofList (bearerPrefix.toList ++ (front ++ (token.toList ++ back)))) =
      strip (String.ofList (front ++ (token.toList ++ back))) := by
  unfold providedToken
  rw [String.toList_ofList]
  rfl

theorem presents_providedToken {header : String}
    (hstarts : bearerPrefix.toList.isPrefixOf header.toList = true) :
    Presents (providedToken header) (some header) := by
  obtain ⟨rest, hrest⟩ := List.isPrefixOf_iff_prefix.mp hstarts
  have hdrop : header.toList.drop 7 = rest := by
    rw [← hrest]
    rfl
  obtain ⟨front, back, hsplit, hfront, hback⟩ := strip_split rest
  refine ⟨front, back, ?_, hfront, hback⟩
  unfold providedToken
  rw [hdrop, ← hsplit, hrest, String.ofList_toList]

theorem presents_iff {token header : String} (hne : token ≠ "") (htoken : strip token = token) :
    Presents token (some header) ↔
      bearerPrefix.toList.isPrefixOf header.toList = true ∧ providedToken header = token := by
  constructor
  · rintro ⟨front, back, hheader, hfront, hback⟩
    obtain rfl := Option.some.inj hheader
    constructor
    · rw [String.toList_ofList]
      exact List.isPrefixOf_iff_prefix.mpr (List.prefix_append _ _)
    · rw [providedToken_of_presents]
      exact strip_surrounded hne (htoken ▸ strip_trimmed token) hfront hback
  · rintro ⟨hstarts, rfl⟩
    exact presents_providedToken hstarts

theorem strip_strip (s : String) : strip (strip s) = strip s := by
  have hself := @strip_of_trimmed _ [] (strip_trimmed s) (by simp)
  rwa [List.append_nil, String.ofList_toList] at hself

theorem bearerExact_of_false {token : String} {header : Option String}
    (h : verifyBearerToken token header = .ok false) :
    BearerExact token header ↔ ¬ Presents token header := by
  unfold BearerExact
  rw [h]
  simp

theorem refusal_right {token header : String} (hne : token ≠ "")
    (hother : providedToken header ≠ token) :
    ¬ Presents token (some header) ↔ strip token = token ∨ ¬ Presents token (some header) := by
  constructor
  · exact .inr
  · rintro (htoken | hnot)
    · exact fun h => hother ((presents_iff hne htoken).mp h).2
    · exact hnot

/-- The check is right exactly where it compares ASCII only, and is not shown a token that begins
or ends in white space. -/
theorem bearerExact_iff {token : String} (hne : token ≠ "") (header : Option String) :
    BearerExact token header ↔ bearerComparable token header = true ∧
      (strip token = token ∨ ¬ Presents token header) := by
  cases header with
  | none =>
    have hfalse : verifyBearerToken token none = .ok false := by
      rw [verifyBearerToken, if_neg hne]
      rfl
    have hnot : ¬ Presents token none := by
      rintro ⟨_, _, hheader, -⟩
      cases hheader
    rw [bearerExact_of_false hfalse]
    exact iff_of_true hnot ⟨rfl, .inr hnot⟩
  | some header =>
    unfold bearerComparable
    rw [Option.all_some]
    cases hstarts : bearerPrefix.toList.isPrefixOf header.toList with
    | false =>
      have hfalse : verifyBearerToken token (some header) = .ok false := by
        rw [verifyBearerToken, if_neg hne, hstarts]
        rfl
      have hnot : ¬ Presents token (some header) := by
        rintro ⟨front, back, hheader, -⟩
        rw [Option.some.inj hheader, String.toList_ofList,
          List.isPrefixOf_iff_prefix.mpr (List.prefix_append _ _)] at hstarts
        cases hstarts
      rw [bearerExact_of_false hfalse]
      exact iff_of_true hnot ⟨rfl, .inr hnot⟩
    | true =>
      have hverify : verifyBearerToken token (some header) =
          if providedToken header = "" then pure false
          else compareDigest token (providedToken header) := by
        rw [verifyBearerToken, if_neg hne, hstarts, Bool.not_true, if_neg Bool.false_ne_true]
      rw [Bool.not_true, Bool.false_or]
      by_cases hempty : providedToken header = ""
      · rw [if_pos hempty] at hverify
        rw [bearerExact_of_false hverify, decide_eq_true hempty, Bool.true_or, and_iff_right rfl]
        exact refusal_right hne (fun h => hne (h.symm.trans hempty))
      · rw [if_neg hempty, compareDigest] at hverify
        rw [decide_eq_false hempty, Bool.false_or]
        cases hascii : isAscii token && isAscii (providedToken header) with
        | false =>
          rw [hascii] at hverify
          apply iff_of_false
          · rintro (⟨h, -⟩ | ⟨h, -⟩) <;> cases hverify.symm.trans h
          · exact fun h => Bool.false_ne_true h.1
        | true =>
          rw [hascii] at hverify
          by_cases hequal : token = providedToken header
          · have htoken : strip token = token := by
              rw [hequal]
              exact strip_strip _
            have hpresents := presents_providedToken hstarts
            rw [← hequal] at hpresents
            apply iff_of_true
            · left
              rw [hverify, if_pos rfl, decide_eq_true hequal]
              exact ⟨rfl, hpresents⟩
            · exact ⟨rfl, .inl htoken⟩
          · rw [if_pos rfl, decide_eq_false hequal] at hverify
            rw [bearerExact_of_false hverify, and_iff_right rfl]
            exact refusal_right hne (Ne.symm hequal)

/-- Each check accepts its one credential and refuses every other. -/
def CredentialsExact (plat : Platform) (secret : String) (body : Bytes) (signature : Option String)
    (token : String) (authorization : Option String) : Prop :=
  SignatureExact plat secret body signature ∧ BearerExact token authorization

theorem credentialsExact_iff (plat : Platform) (secret : String) (body : Bytes)
    (signature : Option String) {token : String} (hne : token ≠ "") (authorization : Option String) :
    CredentialsExact plat secret body signature token authorization ↔
      signatureComparable signature = true ∧ bearerComparable token authorization = true ∧
        (strip token = token ∨ ¬ Presents token authorization) :=
  and_congr signatureExact_iff (bearerExact_iff hne authorization)

/-- The digest of an empty JSON object under the secret "s3cret". -/
def Platform.keyed : Platform where
  hmacSha256 _ _ :=
    "adbde1ce40c89c14215687d5d762a47df6dfaefcfad61e2e86718ffc8498571b"
  loads _ := .decodeError
  bindText _ := none
  bindText_str _ _ h := by cases h

theorem credentialsExact_padded : CredentialsExact .keyed "s3cret" [123, 125]
    (some "sha256=00") "t0ken" (some "Bearer  t0ken ") :=
  (credentialsExact_iff .keyed "s3cret" [123, 125] _ (by decide) _).mpr
    ⟨by decide, by decide, .inl (by decide)⟩

/-- A signature that is not ASCII raises, and so does a bearer token. -/
theorem foreign_letters_raise : ¬ CredentialsExact .keyed "s3cret" [123, 125]
    (some "sha256=é") "t0ken" (some "Bearer é") := by
  rintro ⟨hsignature, -⟩
  have hraises : verifySignature .keyed "s3cret" [123, 125] (some "sha256=é") =
      .error .typeError := rfl
  cases hraises.symm.trans hsignature

end AutoPR.Webhook
