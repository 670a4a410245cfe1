import ObjectStore.Proofs.DispatchMoves

/-!
# Signed requests on the wire

A request cannot be written when its target or one of its header values is at fault. The digest in
a signature is never to blame: its letters are all from the alphabet. So whether a dispatch sends
its request can be told without the digest.
-/

namespace ObjectStore

open Text Http

namespace Text.Base64

theorem letter_mem (n : Nat) : letter n ∈ alphabet := by
  have hlength : alphabet.length = 64 := by decide
  have hlt : n % 64 < alphabet.length := by
    rw [hlength]
    exact Nat.mod_lt n (by decide)
  rw [letter, List.getD_eq_getElem?_getD, List.getElem?_eq_getElem hlt, Option.getD_some]
  exact List.getElem_mem hlt

/-- Only letters of the alphabet and padding stand for bytes. -/
theorem mem_letters {bytes : List UInt8} {c : Char} (h : c ∈ letters bytes) :
    c ∈ '=' :: alphabet := by
  fun_induction letters bytes with
  | case1 a b d rest n ih =>
      simp only [List.mem_cons] at h
      rcases h with rfl | rfl | rfl | rfl | h
      · exact List.mem_cons_of_mem _ (letter_mem _)
      · exact List.mem_cons_of_mem _ (letter_mem _)
      · exact List.mem_cons_of_mem _ (letter_mem _)
      · exact List.mem_cons_of_mem _ (letter_mem _)
      · exact ih h
  | case2 a b n =>
      simp only [List.mem_cons, List.not_mem_nil, or_false] at h
      rcases h with rfl | rfl | rfl | rfl
      · exact List.mem_cons_of_mem _ (letter_mem _)
      · exact List.mem_cons_of_mem _ (letter_mem _)
      · exact List.mem_cons_of_mem _ (letter_mem _)
      · exact List.mem_cons_self
  | case3 a n =>
      simp only [List.mem_cons, List.not_mem_nil, or_false] at h
      rcases h with rfl | rfl | rfl | rfl
      · exact List.mem_cons_of_mem _ (letter_mem _)
      · exact List.mem_cons_of_mem _ (letter_mem _)
      · exact List.mem_cons_self
      · exact List.mem_cons_self
  | case4 => cases h

end Text.Base64

/-- Whether a text can be the value of a header field. -/
def isHeaderValue (text : String) : Bool := (Utf8.ofText text).all Header.isValueByte

theorem isHeaderValue_append (a b : String) :
    isHeaderValue (a ++ b) = (isHeaderValue a && isHeaderValue b) := by
  rw [isHeaderValue, Utf8.ofText, String.toList_append, Utf8.encode_append, List.all_append]
  rfl

theorem isHeaderValue_encode (bytes : List UInt8) : isHeaderValue (Base64.encode bytes) = true := by
  have halphabet : ('=' :: Base64.alphabet).all
      (fun c => (Utf8.encodeChar c).all Header.isValueByte) = true := by decide +kernel
  rw [isHeaderValue, Utf8.ofText, Base64.encode, String.toList_ofList, Utf8.encode,
    List.all_flatMap, List.all_eq_true]
  intro c hc
  exact List.all_eq_true.1 halphabet c (Base64.mem_letters hc)

/-- A signature can be written if the access key can, whatever the digest is. -/
theorem isHeaderValue_authorization (accessKey : String) (digest : List UInt8) :
    isHeaderValue (SigningInput.authorization accessKey digest) = isHeaderValue accessKey := by
  have hprefix : isHeaderValue "AWS " = true := by decide
  have hcolon : isHeaderValue ":" = true := by decide
  rw [SigningInput.authorization, isHeaderValue_append, isHeaderValue_append,
    isHeaderValue_append, hprefix, hcolon, isHeaderValue_encode]
  simp

namespace Request

/-- A request on the wire, with a target that was read. -/
def onWire (r : Request) (host : String) (signed : SignedHeaders) (target : Target) :
    WireRequest :=
  ⟨r.operation.method, target.text, (r.headers host signed).map fun h => ⟨h.1, Utf8.ofText h.2⟩,
    r.body⟩

/-- A request can be written if its target and its header values can. -/
theorem toWire_of_values {r : Request} {host : String} {signed : SignedHeaders}
    {target : Target} (htarget : Target.parse r.target = .ok target)
    (hvalues : (r.headers host signed).all (fun h => isHeaderValue h.2) = true) :
    r.toWire host signed = .ok (r.onWire host signed target) := by
  have hall : ((r.headers host signed).map fun h => Header.mk h.1 (Utf8.ofText h.2)).all
      (fun h => h.value.all Header.isValueByte) = true := by
    rw [List.all_map]
    exact hvalues
  simp only [toWire, onWire, htarget, hall, if_true]

end Request

namespace Transport

/-- A signed request can be written if its target, the access key, and the request without the
signature can. -/
theorem toWire_signed {t : Transport} {c : Channel} {r : Request} {target : Target}
    (htarget : Target.parse r.target = .ok target)
    (hkey : isHeaderValue (t.source.poll t.environment).1.accessKey = true)
    (hrest : (r.headers (r.virtualHost t.host t.port)
      { (t.signed c r).1 with authorization := "" }).all (fun h => isHeaderValue h.2) = true) :
    r.toWire (r.virtualHost t.host t.port) (t.signed c r).1 =
      .ok (r.onWire (r.virtualHost t.host t.port) (t.signed c r).1 target) := by
  have hauthorization : isHeaderValue (t.signed c r).1.authorization = true := by
    rw [← hkey]
    exact isHeaderValue_authorization _ _
  apply Request.toWire_of_values htarget
  rw [Request.headers, List.all_append, Bool.and_eq_true] at hrest ⊢
  obtain ⟨hfixed, hoptional⟩ := hrest
  refine ⟨?_, hoptional⟩
  simp only [List.all_cons, Bool.and_eq_true] at hfixed ⊢
  obtain ⟨hhost, hconnection, hdate, -, hnil⟩ := hfixed
  exact ⟨hhost, hconnection, hdate, hauthorization, hnil⟩

/-- The transport after a dispatch has signed and sent a request whose target was read. -/
def sentSigned (t : Transport) (d channel : Nat) (c : Channel) (r : Request) (target : Target) :
    Transport :=
  t.sentOn d channel c r (r.onWire (r.virtualHost t.host t.port) (t.signed c r).1 target)

/-- A dispatch sends its request if its sink still waits and nothing of the request but the digest
could be at fault. -/
theorem send_signed {t : Transport} {d channel : Nat} {c : Channel} {r : Request}
    {target : Target} (hd : t.phase? d = some (.leased channel))
    (hr : (t.dispatches.find? d).map (·.request) = some r) (hc : t.channel? d = some c)
    (hclaimed : ((t.sinks.find? d).map (·.claimed)).getD false = false)
    (htarget : Target.parse r.target = .ok target)
    (hkey : isHeaderValue (t.source.poll t.environment).1.accessKey = true)
    (hrest : (r.headers (r.virtualHost t.host t.port)
      { (t.signed c r).1 with authorization := "" }).all (fun h => isHeaderValue h.2) = true) :
    t.send d = t.sentSigned d channel c r target ∧
      ∃ wire, t.report (.send d) = .sent d channel wire := by
  obtain ⟨x, hx, rfl⟩ := Option.map_eq_some_iff.1 hr
  obtain ⟨hsend, hreport⟩ := send_of_written hd hx hc hclaimed (toWire_signed htarget hkey hrest)
  exact ⟨hsend, _, hreport⟩

end Transport

end ObjectStore
