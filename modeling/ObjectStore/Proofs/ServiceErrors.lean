import ObjectStore.Completion
import ObjectStore.Proofs.DocumentTrees
import ObjectStore.ServiceError.Document

/-!
# Errors of responses without success

A response without success is an error of the service whatever its body is. The body is read to its
end before anything of it counts: a complete document gives the fields, and any other body only the
status.
-/

namespace ObjectStore

open Text Xml Http

namespace Xml

variable {H C N : Type} {handling : Handling H C} {table : Table H} {body : List UInt8}

/-! ## Complete documents -/

/-- Handlers that do nothing at all. -/
def silent : Handling H Unit where
  onStart _ _ := ((), none)
  onText _ _ _ _ := ((), none)
  onEnd _ _ := ((), none)

/-- A complete document can be read to its end, whatever its elements are. -/
theorem exists_visits (hbody : Complete body) : ∃ found, visits table body = .ok found := by
  have hsilent : decode silent table body () = .ok () :=
    decode_of_idle hbody fun name _ => ⟨rfl, fun _ _ => rfl, rfl⟩
  obtain ⟨found, hfound, -⟩ := decode_eq_ok_iff_visits.1 hsilent
  exact ⟨found, hfound⟩

/-- Visits that are never refused are all carried out. -/
theorem Handling.perform_eq_ok {f : C → Visit H → C}
    (h : ∀ value visit, handling.visit value visit = .ok (f value visit)) (value : C)
    (found : List (Visit H)) : handling.perform value found = .ok (found.foldl f value) := by
  induction found generalizing value with
  | nil => rfl
  | cons visit rest ih => rw [perform_cons_of_ok (h value visit), ih, List.foldl_cons]

/-! ## Texts of handlers -/

/-- The text that a visit hands to a handler while another one is open around it. -/
def Visit.textIn [DecidableEq H] (outer inner : H) : Visit H → Option String
  | .text h chars stack => if stack.parent = some outer ∧ h = inner then some chars else none
  | .entered _ | .left _ => none

theorem Visit.textIn_eq_textWhere [DecidableEq H] (outer inner : H) :
    Visit.textIn outer inner =
      Visit.textWhere fun parent around => parent = some outer ∧ around = some inner := by
  funext visit
  cases visit <;> simp [Visit.textIn, Visit.textWhere]

theorem Nodes.textsIn_eq_textsWhere [DecidableEq N] (outer name : N) (parent around : Option N)
    (nodes : Nodes N) :
    nodes.textsIn outer name parent around =
      nodes.textsWhere (fun parent around => parent = some outer ∧ around = some name)
        parent around := by
  induction nodes generalizing parent around with
  | nil => rfl
  | text chars rest ih => simp [textsIn, textsWhere, ih]
  | element other inner rest ihInner ihRest => simp [textsIn, textsWhere, ihInner, ihRest]

/-- The texts that a handler gets are those of its elements, in the order of the document. -/
theorem filterMap_textIn [DecidableEq H] [DecidableEq N] {f : N → H} {outer name : N}
    {outerHandler handler : H} (houter : ∀ n, f n = outerHandler ↔ n = outer)
    (hname : ∀ n, f n = handler ↔ n = name) (nodes : Nodes N) :
    ((nodes.map f).visits Stack.empty).filterMap (Visit.textIn outerHandler handler) =
      nodes.textsIn outer name none none := by
  rw [Visit.textIn_eq_textWhere, Nodes.textsIn_eq_textsWhere, Nodes.filterMap_textWhere (by simp)]
  refine (Nodes.textsWhere_map f _ none none nodes).trans ?_
  simp only [Option.map_eq_some_iff, houter, hname, exists_eq_right]

end Xml

namespace ServiceError

variable {status : Nat} {body : List UInt8} {e : ServiceError}

/-- What a visit does to an error. -/
def told (e : ServiceError) : Visit ServiceErrorTag → ServiceError
  | .text tag chars stack => onText tag chars stack e
  | .entered _ | .left _ => e

theorem visit_eq (e : ServiceError) (visit : Visit ServiceErrorTag) :
    handling.visit e visit = .ok (e.told visit) := by
  cases visit <;> rfl

/-- An error document is decoded just when it is complete: no handler refuses anything. -/
theorem decode_isOk_iff : (decode status body).isOk = true ↔ Complete body := by
  constructor
  · intro h
    obtain ⟨e, he⟩ := exists_of_isOk h
    exact complete_of_decode he
  · intro hbody
    obtain ⟨found, hfound⟩ : ∃ found, visits table body = .ok found := exists_visits hbody
    have hdecode := decode_eq_ok_iff_visits.2
      ⟨found, hfound, Handling.perform_eq_ok visit_eq (ofStatus status) found⟩
    rw [decode, hdecode]
    rfl

/-! ## Fields -/

/-- The error whose fields have some texts. -/
def ofTexts (status : Nat) (texts : ServiceErrorTag → List String) : ServiceError where
  status := status
  code := String.join (texts .code)
  message := String.join (texts .message)
  resource := joined? (texts .resource)
  requestId := joined? (texts .requestId)

theorem joined?_concat (texts : List String) (text : String) :
    joined? (texts ++ [text]) = some ((joined? texts).getD "" ++ text) := by
  cases texts with
  | nil => simp [joined?]
  | cons first rest => simp [joined?, String.append_assoc]

/-- A visit adds its text to the field of its element. -/
theorem told_ofTexts (texts : ServiceErrorTag → List String) (visit : Visit ServiceErrorTag) :
    (ofTexts status texts).told visit =
      ofTexts status fun tag => texts tag ++ (Visit.textIn .root tag visit).toList := by
  cases visit with
  | entered h => simp [told, Visit.textIn]
  | left h => simp [told, Visit.textIn]
  | text h chars stack =>
      by_cases hparent : stack.parent = some .root
      · cases h <;> simp [told, onText, hparent, Visit.textIn, ofTexts, joined?_concat]
      · simp [told, onText, hparent, Visit.textIn]

theorem foldl_told (texts : ServiceErrorTag → List String)
    (found : List (Visit ServiceErrorTag)) :
    found.foldl told (ofTexts status texts) =
      ofTexts status fun tag => texts tag ++ found.filterMap (Visit.textIn .root tag) := by
  induction found generalizing texts with
  | nil => simp
  | cons visit rest ih =>
      have hcons (tag : ServiceErrorTag) :
          (visit :: rest).filterMap (Visit.textIn .root tag) =
            (Visit.textIn .root tag visit).toList ++ rest.filterMap (Visit.textIn .root tag) := by
        rw [List.filterMap_cons]
        cases Visit.textIn .root tag visit <;> rfl
      rw [List.foldl_cons, told_ofTexts, ih]
      simp only [hcons, List.append_assoc]

theorem find_eq_iff_element {tag : ServiceErrorTag} (h : tag ≠ .unknown) (key : List UInt8) :
    table.find key = tag ↔ key = Utf8.ofText tag.element := by
  cases tag with
  | unknown => exact absurd rfl h
  | _ => exact Table.find_eq_iff (by decide +kernel) (by decide) (by decide +kernel)

/-- What a document that is decoded says is all in its tree. -/
theorem exists_nodes_of_decode (h : decode status body = .ok e) :
    ∃ nodes, nodes? body = some nodes ∧ e = ofNodes status nodes := by
  obtain ⟨found, hfound, hperform⟩ := decode_eq_ok_iff_visits.1 h
  obtain ⟨nodes, hnodes, rfl⟩ := exists_nodes_of_visits hfound
  refine ⟨nodes, hnodes, ?_⟩
  rw [Handling.perform_eq_ok visit_eq] at hperform
  obtain rfl := Except.ok.inj hperform
  have htexts {tag : ServiceErrorTag} (h : tag ≠ .unknown) :
      ((nodes.map table.find).visits Stack.empty).filterMap (Visit.textIn .root tag) =
        fieldTexts nodes tag :=
    filterMap_textIn (find_eq_iff_element (by decide)) (find_eq_iff_element h) nodes
  change (_ : List _).foldl told (ofTexts status fun _ => []) = _
  rw [foldl_told]
  simp only [ofTexts, ofNodes, List.nil_append]
  rw [htexts (by decide), htexts (by decide), htexts (by decide), htexts (by decide)]

/-- Of a complete document the error says what is in its tree. -/
theorem ofBody_of_complete (status : Nat) (hbody : Complete body) :
    ∃ nodes, nodes? body = some nodes ∧ ofBody status body = ofNodes status nodes := by
  have hdecode : (decode status body).isOk = true := decode_isOk_iff.2 hbody
  obtain ⟨e, he⟩ := exists_of_isOk hdecode
  obtain ⟨nodes, hnodes, rfl⟩ := exists_nodes_of_decode he
  have hempty : body.isEmpty = false := by
    cases body with
    | nil => exact absurd rfl hbody.rooted
    | cons b r => rfl
  refine ⟨nodes, hnodes, ?_⟩
  rw [ofBody, hempty, he]
  rfl

/-- Of any other body it says nothing, wherever the defect is. -/
theorem ofBody_of_not_complete (status : Nat) (hbody : ¬Complete body) :
    ofBody status body = ofStatus status := by
  unfold ofBody
  split
  · rfl
  · cases hdecode : decode status body with
    | error fault => rfl
    | ok e => exact absurd (complete_of_decode hdecode) hbody

theorem ofBody_status (status : Nat) (body : List UInt8) :
    (ofBody status body).status = status := by
  by_cases hbody : Complete body
  · obtain ⟨nodes, -, he⟩ := ofBody_of_complete status hbody
    rw [he]
    rfl
  · rw [ofBody_of_not_complete status hbody]
    rfl

end ServiceError

/-- Whatever comes back without success is an error of the service with its status. Of a complete
document the error has the fields, each put together of the texts of its elements; of any other
body, however far it can be read, it has none. -/
theorem service_error_of_response (parser : Parser) {r : Response} (hok : r.status ≠ 200)
    (hempty : r.status ≠ 204) :
    ∃ e : ServiceError,
      ((Completion.ofParser parser).onResponse r).2.receive.1 = .result (.error (.service e)) ∧
      e.status = r.status ∧
      (Complete r.body → ∃ nodes, nodes? r.body = some nodes ∧ e = .ofNodes r.status nodes) ∧
      (¬Complete r.body → e = .ofStatus r.status) ∧
      ((ServiceError.decode r.status r.body).isOk = true ↔ Complete r.body) := by
  have hsuccess : r.isSuccess = false := by simp [Response.isSuccess, hok, hempty]
  refine ⟨.ofBody r.status r.body, ?_, ServiceError.ofBody_status _ _,
    ServiceError.ofBody_of_complete r.status, ServiceError.ofBody_of_not_complete r.status,
    ServiceError.decode_isOk_iff⟩
  change Receipt.result (parser.complete r) = _
  rw [Parser.complete, hsuccess]
  rfl

/-- A response with a code in two pieces, a code of something else and an empty request id. -/
def slowDown : Response where
  status := 503
  body := Utf8.ofText ("<Error><Code>Slow<![CDATA[Down]]></Code>" ++
    "<At><Code>x</Code></At><RequestId><![CDATA[]]></RequestId></Error>")

/-- The same response cut short by its last byte. -/
def slowDownCut : Response := { slowDown with body := slowDown.body.dropLast }

/-- The code is read of the whole document, and nothing is when its last byte is missing. -/
theorem service_error_of_response_slowDown :
    slowDown.status ≠ 200 ∧ slowDown.status ≠ 204 ∧
    ((Completion.ofParser .deletion).onResponse slowDown).2.receive.1 =
      .result (.error (.service ⟨503, "SlowDown", "", none, some ""⟩)) ∧
    ((Completion.ofParser .deletion).onResponse slowDownCut).2.receive.1 =
      .result (.error (.service (.ofStatus 503))) := by
  have hstatus : slowDown.status ≠ 200 ∧ slowDown.status ≠ 204 := ⟨by decide, by decide⟩
  refine ⟨hstatus.1, hstatus.2, ?_, ?_⟩
  · obtain ⟨e, hresult, -, hcomplete, -⟩ :=
      service_error_of_response .deletion hstatus.1 hstatus.2
    have hbody : Complete slowDown.body :=
      ⟨by decide +kernel, by decide +kernel, by decide +kernel⟩
    obtain ⟨nodes, hnodes, rfl⟩ := hcomplete hbody
    have hread : (nodes? slowDown.body).map (ServiceError.ofNodes 503) =
        some ⟨503, "SlowDown", "", none, some ""⟩ := by decide +kernel
    rw [hnodes] at hread
    rw [hresult]
    exact congrArg (fun e => Receipt.result (.error (.service e))) (Option.some.inj hread)
  · have hcut : slowDownCut.status ≠ 200 ∧ slowDownCut.status ≠ 204 := hstatus
    obtain ⟨e, hresult, -, -, hbroken, -⟩ :=
      service_error_of_response .deletion hcut.1 hcut.2
    have hbody : ¬Complete slowDownCut.body :=
      fun h => absurd h.faultless (by decide +kernel)
    rw [hresult, hbroken hbody]
    rfl

end ObjectStore
