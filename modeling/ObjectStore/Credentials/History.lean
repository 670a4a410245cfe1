import ObjectStore.Credentials

/-!
# Credentials over time

While a source of credentials is in use, its environment changes and the source is asked, in any
order. A history is the list of these moments. What it comes to is the list of answers, each with
the environment in which it was given. A variable whose value is no text is not set.
-/

namespace ObjectStore

open Text

/-- What happens to a source of credentials. -/
inductive Moment
  /-- Variables are set or unset: from now on the environment is this one. -/
  | change (environment : Environment)
  /-- The source is asked for credentials. -/
  | ask
  deriving Repr

/-- The answers of a source in a history that begins in an environment, each with the environment
in which it was given. -/
def CredentialsSource.answers (environment : Environment) (source : CredentialsSource) :
    List Moment → List (Environment × Credentials)
  | [] => []
  | .change next :: rest => source.answers next rest
  | .ask :: rest =>
      let (credentials, source) := source.poll environment
      (environment, credentials) :: source.answers environment rest

namespace Credentials

/-- The credentials of a valid environment: both keys are set, the access key is not blank and the
secret not empty. There is a session token when one is set that is not empty. -/
structure StandIn (environment : Environment) (c : Credentials) : Prop where
  accessKey : environment.get? "AWS_ACCESS_KEY_ID" = some c.accessKey
  secretKey : environment.get? "AWS_SECRET_ACCESS_KEY" = some c.secretKey
  sessionToken : (environment.get? "AWS_SESSION_TOKEN").filter (· ≠ "") = c.sessionToken
  notBlank : ∃ char ∈ c.accessKey.toList, isBlank char = false
  notEmpty : c.secretKey ≠ ""

/-- Credentials that a request can be signed with. -/
structure Usable (c : Credentials) : Prop where
  accessKey : ∃ char ∈ c.accessKey.toList, isBlank char = false
  secretKey : c.secretKey ≠ ""
  sessionToken : c.sessionToken ≠ some ""

end Credentials

/-- An environment that no credentials stand in. -/
def Environment.IsInvalid (environment : Environment) : Prop :=
  ∀ c : Credentials, ¬ c.StandIn environment

/-- Credentials are the last of some answers that were given in a valid environment. -/
def Credentials.IsLatestOf (c : Credentials) (answers : List (Environment × Credentials)) : Prop :=
  ∃ older environment newer, answers = older ++ (environment, c) :: newer ∧
    c.StandIn environment ∧ ∀ answer ∈ newer, answer.1.IsInvalid

/-- How an answer follows from the environment in which it is given and from the answers before
it. -/
structure Serves (past : List (Environment × Credentials)) (environment : Environment)
    (c : Credentials) : Prop where
  fresh : ∀ d : Credentials, d.StandIn environment → c = d
  kept : environment.IsInvalid → c.IsLatestOf past
  /-- All parts come from one environment. -/
  whole : c.StandIn environment ∨ ∃ answer ∈ past, c.StandIn answer.1
  usable : c.Usable

end ObjectStore
