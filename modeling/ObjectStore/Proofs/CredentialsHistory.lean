import ObjectStore.Credentials.History
import ObjectStore.Proofs.TrimmedText

/-!
# Answers of a source on the environment

A source on the environment reads all variables at once and remembers what it read last from a
valid environment. So an answer is what stands in the environment, and while that is not valid,
what the last answer from a valid environment was: never a key of one environment with a secret
of another.
-/

namespace ObjectStore

open Text

namespace Credentials

variable {env : Environment} {c d : Credentials}

theorem ofKeys_eq_ok {accessKey secretKey : String} :
    ofKeys accessKey secretKey = .ok c ↔
      (∃ char ∈ accessKey.toList, isBlank char = false) ∧ secretKey ≠ "" ∧
        c = { accessKey, secretKey } := by
  rw [← isEmpty_trim_eq_false_iff]
  unfold ofKeys
  split
  · rename_i hblank
    exact iff_of_false nofun fun h => by rw [hblank] at h; cases h.1
  split
  · rename_i hsecret
    exact iff_of_false nofun fun h => h.2.1 (String.isEmpty_iff.1 hsecret)
  · rename_i hkey hsecret
    constructor
    · rintro ⟨⟩
      exact ⟨Bool.eq_false_iff.2 hkey, fun h => hsecret (String.isEmpty_iff.2 h), rfl⟩
    · rintro ⟨-, -, rfl⟩
      rfl

/-- A token that is set counts when it is not empty. -/
theorem withToken_eq (c : Credentials) (token : String) :
    c.withToken token = { c with sessionToken := (some token).filter (· ≠ "") } := by
  by_cases htoken : token = ""
  · simp [withToken, htoken, Option.filter_some]
  · simp [withToken, htoken, Option.filter_some]

/-- Keys that are set and good are read with the token beside them. -/
theorem StandIn.ofEnvironment_eq (h : c.StandIn env) : ofEnvironment env = .ok c := by
  have hkeys : ofKeys c.accessKey c.secretKey = .ok { c with sessionToken := none } :=
    ofKeys_eq_ok.2 ⟨h.notBlank, h.notEmpty, rfl⟩
  unfold ofEnvironment
  rw [h.accessKey, h.secretKey]
  simp only [hkeys, Except.map]
  have hparts : { c with sessionToken := (env.get? "AWS_SESSION_TOKEN").filter (· ≠ "") } = c :=
    congrArg (fun token => { c with sessionToken := token }) h.sessionToken
  cases hset : env.get? "AWS_SESSION_TOKEN" with
  | none =>
      rw [hset] at hparts
      exact congrArg Except.ok hparts
  | some token =>
      rw [hset] at hparts
      simp only [withToken_eq]
      exact congrArg Except.ok hparts

/-- What is read from an environment are the credentials that stand in it. -/
theorem ofEnvironment_eq_ok : ofEnvironment env = .ok c ↔ c.StandIn env := by
  refine ⟨fun h => ?_, StandIn.ofEnvironment_eq⟩
  have hread := h
  unfold ofEnvironment at hread
  split at hread
  · cases hread
  rename_i accessKey haccess
  split at hread
  · cases hread
  rename_i secretKey hsecret
  cases hkeys : ofKeys accessKey secretKey with
  | error e =>
      rw [hkeys] at hread
      cases hread
  | ok keys =>
      obtain ⟨hblank, hempty, -⟩ := ofKeys_eq_ok.1 hkeys
      have hstand : StandIn env
          ⟨accessKey, secretKey, (env.get? "AWS_SESSION_TOKEN").filter (· ≠ "")⟩ :=
        ⟨haccess, hsecret, rfl, hblank, hempty⟩
      cases Except.ok.inj (h.symm.trans hstand.ofEnvironment_eq)
      exact hstand

theorem StandIn.eq (hc : c.StandIn env) (hd : d.StandIn env) : c = d :=
  Except.ok.inj ((ofEnvironment_eq_ok.2 hc).symm.trans (ofEnvironment_eq_ok.2 hd))

theorem StandIn.usable (h : c.StandIn env) : c.Usable where
  accessKey := h.notBlank
  secretKey := h.notEmpty
  sessionToken htoken := by
    have hkept := (Option.filter_eq_some_iff.1 (h.sessionToken.trans htoken)).2
    simp at hkept

/-! ## The last answer from a valid environment -/

section Latest
variable {past : List (Environment × Credentials)}

/-- The credentials that stand in an environment are the latest after an answer there. -/
theorem StandIn.isLatestOf (h : c.StandIn env) (past : List (Environment × Credentials)) :
    c.IsLatestOf (past ++ [(env, c)]) :=
  ⟨past, env, [], rfl, h, nofun⟩

/-- An answer in an environment that is not valid does not count. -/
theorem IsLatestOf.snoc (h : c.IsLatestOf past) (hinvalid : env.IsInvalid) (d : Credentials) :
    c.IsLatestOf (past ++ [(env, d)]) := by
  obtain ⟨older, valid, newer, rfl, hstand, hnewer⟩ := h
  refine ⟨older, valid, newer ++ [(env, d)], by simp, hstand, fun answer hanswer => ?_⟩
  rcases List.mem_append.1 hanswer with hanswer | hanswer
  · exact hnewer answer hanswer
  · rw [List.mem_singleton.1 hanswer]
    exact hinvalid

theorem IsLatestOf.exists_standIn (h : c.IsLatestOf past) :
    ∃ answer ∈ past, c.StandIn answer.1 := by
  obtain ⟨older, valid, newer, rfl, hstand, -⟩ := h
  exact ⟨(valid, c), by simp, hstand⟩

end Latest

end Credentials

/-! ## One answer -/

open Credentials

section Answers
variable {env : Environment} {past : List (Environment × Credentials)} {lastGood : Credentials}

theorem Serves.ofStandIn {c : Credentials} (h : c.StandIn env) : Serves past env c where
  fresh _ hd := h.eq hd
  kept hinvalid := absurd h (hinvalid c)
  whole := .inl h
  usable := h.usable

theorem Serves.ofLatest (h : lastGood.IsLatestOf past) (hinvalid : env.IsInvalid) :
    Serves past env lastGood where
  fresh d hd := absurd hd (hinvalid d)
  kept _ := h
  whole := .inr h.exists_standIn
  usable := by
    obtain ⟨answer, -, hstand⟩ := h.exists_standIn
    exact hstand.usable

/-- A source that remembers the last answer from a valid environment gives the right answer next,
and remembers it. -/
theorem poll_serves (h : lastGood.IsLatestOf past) (env : Environment) :
    ∃ c, ((CredentialsSource.environment lastGood).poll env).1 = c ∧ Serves past env c ∧
      ∃ next, ((CredentialsSource.environment lastGood).poll env).2 = .environment next ∧
        next.IsLatestOf (past ++ [(env, c)]) := by
  unfold CredentialsSource.poll
  cases hread : Credentials.ofEnvironment env with
  | ok fresh =>
      have hstand := ofEnvironment_eq_ok.1 hread
      exact ⟨fresh, rfl, .ofStandIn hstand, fresh, rfl, hstand.isLatestOf past⟩
  | error e =>
      have hinvalid : env.IsInvalid := fun d hd => by
        rw [hd.ofEnvironment_eq] at hread
        cases hread
      exact ⟨lastGood, rfl, .ofLatest h hinvalid, lastGood, rfl, h.snoc hinvalid lastGood⟩

/-! ## Histories -/

/-- By induction on the history: the answers so far are part of the past of the next one. -/
theorem answers_serve (h : lastGood.IsLatestOf past) (env : Environment) (history : List Moment)
    {older newer : List (Environment × Credentials)} {env' : Environment} {c : Credentials}
    (hanswers : (CredentialsSource.environment lastGood).answers env history =
      older ++ (env', c) :: newer) : Serves (past ++ older) env' c := by
  induction history generalizing past lastGood env older with
  | nil => simp [CredentialsSource.answers] at hanswers
  | cons moment rest ih =>
      cases moment with
      | change next => exact ih h next hanswers
      | ask =>
          obtain ⟨d, hd, hserves, next, hnext, hlatest⟩ := poll_serves h env
          simp only [CredentialsSource.answers, hd, hnext] at hanswers
          cases older with
          | nil =>
              obtain ⟨⟨⟩, -⟩ := List.cons.inj hanswers
              rw [List.append_nil]
              exact hserves
          | cons answer older =>
              obtain ⟨rfl, hrest⟩ := List.cons.inj hanswers
              rw [List.append_cons]
              exact ih hlatest env hrest

end Answers

/-- A source that was made in a valid environment, in any history that begins there. The
environment in which it was made counts as the first answer of the past. -/
theorem CredentialsSource.answers_over_time {first : Environment} {source : CredentialsSource}
    (hsource : CredentialsSource.ofEnvironment first = .ok source) :
    ∃ made : Credentials, made.StandIn first ∧
      ∀ history older environment c newer,
        source.answers first history = older ++ (environment, c) :: newer →
          Serves ((first, made) :: older) environment c := by
  unfold CredentialsSource.ofEnvironment at hsource
  cases hread : Credentials.ofEnvironment first with
  | error e =>
      rw [hread] at hsource
      cases hsource
  | ok made =>
      rw [hread] at hsource
      cases hsource
      have hstand := ofEnvironment_eq_ok.1 hread
      refine ⟨made, hstand, fun history older environment c newer hanswers => ?_⟩
      exact answers_serve (hstand.isLatestOf []) first history hanswers

/-- Keys before they are exchanged for others. -/
def oldKeys : Environment :=
  .ofList [("AWS_ACCESS_KEY_ID", "OLD"), ("AWS_SECRET_ACCESS_KEY", "old")]

/-- Only the access key is exchanged, and the old secret is gone. -/
def halfExchanged : Environment := .ofList [("AWS_ACCESS_KEY_ID", "NEW")]

def newKeys : Environment :=
  .ofList [("AWS_ACCESS_KEY_ID", "NEW"), ("AWS_SECRET_ACCESS_KEY", "new"),
    ("AWS_SESSION_TOKEN", "token")]

/-- The old keys are served until the new ones are complete. -/
theorem answers_over_time_exchange :
    CredentialsSource.ofEnvironment oldKeys = .ok (.environment ⟨"OLD", "old", none⟩) ∧
      (CredentialsSource.environment ⟨"OLD", "old", none⟩).answers oldKeys
          [.change halfExchanged, .ask, .change newKeys, .ask] =
        [(halfExchanged, ⟨"OLD", "old", none⟩), (newKeys, ⟨"NEW", "new", some "token"⟩)] ∧
      ∃ made : Credentials, made.StandIn oldKeys ∧
        Serves [(oldKeys, made)] halfExchanged ⟨"OLD", "old", none⟩ ∧
        Serves [(oldKeys, made), (halfExchanged, ⟨"OLD", "old", none⟩)] newKeys
          ⟨"NEW", "new", some "token"⟩ := by
  have hsource : CredentialsSource.ofEnvironment oldKeys =
      .ok (.environment ⟨"OLD", "old", none⟩) := by decide
  have hanswers : (CredentialsSource.environment ⟨"OLD", "old", none⟩).answers oldKeys
      [.change halfExchanged, .ask, .change newKeys, .ask] =
        [(halfExchanged, ⟨"OLD", "old", none⟩), (newKeys, ⟨"NEW", "new", some "token"⟩)] := rfl
  obtain ⟨made, hmade, hserves⟩ := CredentialsSource.answers_over_time hsource
  exact ⟨hsource, hanswers, made, hmade, hserves _ [] _ _ _ hanswers,
    hserves _ [_] _ _ [] hanswers⟩

end ObjectStore
