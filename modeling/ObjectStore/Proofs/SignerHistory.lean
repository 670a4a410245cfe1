import Mathlib.Data.List.Forall2
import ObjectStore.Signature

/-!
# Signers keep nothing

A signer writes after what its buffers hold, and wipes them when a request is signed. So its
buffers are empty before each request, and it signs each one as if it had signed none before,
whoever the earlier ones were signed for.
-/

namespace ObjectStore

open Text

/-! ## Digests fill their buffer -/

namespace Digest

theorem length_flatMap_bigBytes (words : List UInt32) :
    (words.flatMap bigBytes).length = 4 * words.length := by
  induction words with
  | nil => rfl
  | cons w rest ih =>
      rw [List.flatMap_cons, List.length_append, ih, List.length_cons, Nat.mul_succ, Nat.add_comm]
      rfl

theorem Sha1.length_digest (message : List UInt8) : (digest message).length = 20 :=
  length_flatMap_bigBytes _

theorem Sha1.length_keyed (key message : List UInt8) : (keyed key message).length = 20 :=
  length_digest _

end Digest

/-! ## The signed text by its lines -/

namespace SigningInput

/-- The lines above the resource: verb, checksum, type, date, and the session token when there is
one. -/
def headLines (input : SigningInput) (token : Option String) (date : String) : List String :=
  [input.operation.verb, input.contentMd5, input.contentType, date] ++
    (token.map fun token => "x-amz-security-token:" ++ token).toList

theorem tokenLine_some (token : String) :
    tokenLine (some token) = ("x-amz-security-token:" ++ token).toList ++ ['\n'] := by
  unfold tokenLine
  rw [String.toList_append]

theorem tokenLine_eq_flatMap (token : Option String) :
    tokenLine token = (token.map fun token => "x-amz-security-token:" ++ token).toList.flatMap
      fun line => line.toList ++ ['\n'] := by
  cases token with
  | none => rfl
  | some token => rw [tokenLine_some, Option.map_some, Option.toList_some, List.flatMap_singleton]

/-- Each of the first lines ends with a line feed, and a slash, the bucket and the resource follow
them. -/
theorem stringToSign_eq_lines (input : SigningInput) (token : Option String) (date : String) :
    input.stringToSign token date =
      (input.headLines token date).flatMap (fun line => line.toList ++ ['\n']) ++
        '/' :: (input.bucket.toList ++ input.operation.resource input.target.toList) := by
  rw [stringToSign, tokenLine_eq_flatMap, headLines]
  simp only [List.flatMap_cons, List.append_assoc, List.cons_append, List.nil_append]

end SigningInput

/-- Headers that carry the signature of a request by some credentials at an instant, and nothing
else: the keyed digest of the lines of the request under the secret key. -/
structure SignedHeaders.Vouch (h : SignedHeaders) (input : SigningInput) (c : Credentials)
    (now : Calendar.Instant) : Prop where
  date : h.date = now.headerText
  securityToken : h.securityToken = c.sessionToken
  authorization : h.authorization = "AWS " ++ c.accessKey ++ ":" ++
    Base64.encode (Digest.Sha1.keyed (Utf8.ofText c.secretKey) (Utf8.encode
      ((input.headLines c.sessionToken now.headerText).flatMap (fun line => line.toList ++ ['\n'])
        ++ '/' :: (input.bucket.toList ++ input.operation.resource input.target.toList))))

theorem SigningInput.vouch_headers (input : SigningInput) (c : Credentials)
    (now : Calendar.Instant) : (input.headers c now).Vouch input c now where
  date := rfl
  securityToken := rfl
  authorization := by rw [← stringToSign_eq_lines]; rfl

/-! ## Signers before and after a request -/

namespace Signer

/-- Both texts are empty, and the digest is all zeros. -/
structure IsWiped (s : Signer) : Prop where
  text : s.text = []
  date : s.date = []
  digest : s.digest = List.replicate 20 0

variable {s : Signer}

theorem isWiped_fresh : fresh.IsWiped := ⟨rfl, rfl, rfl⟩

theorem IsWiped.eq_fresh (h : s.IsWiped) : s = fresh := by
  obtain ⟨text, date, digest⟩ := s
  obtain ⟨rfl, rfl, rfl⟩ := h
  rfl

/-- A signer is wiped by each request, whatever its buffers held before. -/
theorem isWiped_sign (s : Signer) (input : SigningInput) (c : Credentials)
    (now : Calendar.Instant) : (s.sign input c now).2.IsWiped where
  text := rfl
  date := rfl
  digest := by
    change (SigningInput.digest c.secretKey _).map (fun _ => 0) = _
    rw [List.map_const', SigningInput.digest, Digest.Sha1.length_keyed]

/-- A signer whose buffers are empty writes the date and the text of the request alone. -/
theorem IsWiped.sign_eq (h : s.IsWiped) (input : SigningInput) (c : Credentials)
    (now : Calendar.Instant) : s.sign input c now = (input.headers c now, fresh) := by
  refine Prod.ext ?_ (s.isWiped_sign input c now).eq_fresh
  simp only [sign, writeDate, writeText, writeDigest, h.text, h.date, List.nil_append,
    String.ofList_toList, SigningInput.headers]

/-! ## Histories of a signer -/

theorem signAll_cons (s : Signer) (call : SigningInput × Credentials × Calendar.Instant)
    (rest : List (SigningInput × Credentials × Calendar.Instant)) :
    s.signAll (call :: rest) =
      ((s.sign call.1 call.2.1 call.2.2).1 :: ((s.sign call.1 call.2.1 call.2.2).2.signAll rest).1,
        ((s.sign call.1 call.2.1 call.2.2).2.signAll rest).2) := rfl

theorem signAll_append (s : Signer)
    (calls more : List (SigningInput × Credentials × Calendar.Instant)) :
    s.signAll (calls ++ more) =
      ((s.signAll calls).1 ++ ((s.signAll calls).2.signAll more).1,
        ((s.signAll calls).2.signAll more).2) := by
  induction calls generalizing s with
  | nil => rfl
  | cons call rest ih =>
      rw [List.cons_append, signAll_cons, ih, signAll_cons]
      rfl

/-- After any number of requests a signer is wiped. -/
theorem IsWiped.signAll (h : s.IsWiped)
    (calls : List (SigningInput × Credentials × Calendar.Instant)) :
    (s.signAll calls).2.IsWiped := by
  induction calls generalizing s with
  | nil => exact h
  | cons call rest ih => exact ih (s.isWiped_sign call.1 call.2.1 call.2.2)

theorem IsWiped.signAll_eq_map (h : s.IsWiped)
    (calls : List (SigningInput × Credentials × Calendar.Instant)) :
    (s.signAll calls).1 = calls.map fun call => call.1.headers call.2.1 call.2.2 := by
  induction calls generalizing s with
  | nil => rfl
  | cons call rest ih => rw [signAll_cons, h.sign_eq, List.map_cons, ← ih isWiped_fresh]

/-- A signer gives each request of any history the headers that a fresh signer gives it, which
carry the signature of this request alone. After each request its buffers are wiped, and what
follows is signed as if nothing had been signed before. -/
theorem signAll_as_fresh (calls : List (SigningInput × Credentials × Calendar.Instant)) :
    (fresh.signAll calls).1 = calls.map (fun call => (fresh.sign call.1 call.2.1 call.2.2).1) ∧
      List.Forall₂ (fun call (h : SignedHeaders) => h.Vouch call.1 call.2.1 call.2.2)
        calls (fresh.signAll calls).1 ∧
      ∀ before after, calls = before ++ after →
        (fresh.signAll before).2.IsWiped ∧
        (fresh.signAll calls).1 = (fresh.signAll before).1 ++ (fresh.signAll after).1 := by
  refine ⟨?_, ?_, ?_⟩
  · rw [isWiped_fresh.signAll_eq_map]
    refine List.map_congr_left fun call _ => ?_
    rw [isWiped_fresh.sign_eq]
  · rw [isWiped_fresh.signAll_eq_map, List.forall₂_map_right_iff, List.forall₂_same]
    exact fun call _ => call.1.vouch_headers call.2.1 call.2.2
  · rintro before after rfl
    have hwiped := isWiped_fresh.signAll before
    refine ⟨hwiped, ?_⟩
    rw [signAll_append, hwiped.eq_fresh]

end Signer

end ObjectStore
