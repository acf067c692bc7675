import FastapiEffects.Errors
import FastapiEffects.Python.Time

/-! # Principals

The identity and the scopes a caller acts with. A `frozenset` of scopes is a list
without duplicates.
-/

namespace FastapiEffects

open Python

/-- `_SCOPE_PATTERN`, and `_SCOPE` of the routes and of delegation. -/
def isScope (s : Str) : Bool :=
  s.fullmatch (PyChar.isIn [('A', 'Z'), ('a', 'z'), ('0', '9')] [])
    (PyChar.isIn [('A', 'Z'), ('a', 'z'), ('0', '9')] ['.', '_', ':', '-']) 127

def maxScopes : ℕ := 256

/-- Whether a text is trimmed, of at most 512 characters and without control characters. -/
def isIdentifier (value : Str) : Bool :=
  value ≠ [] ∧ value = value.strip ∧ value.length ≤ 512 ∧
    ¬ value.any fun c => c.ord < 32 ∨ c.ord = 127

/-- `_validate_identifier`. -/
def validateIdentifier (name : String) (value : Option Str) : Except PyError Unit :=
  check (value.all isIdentifier) (.configuration
    s!"Principal {name} must be a safe, trimmed string of at most 512 characters.")

/-- The arguments of `Principal(...)`; the first `issued_at` default is the clock's. -/
structure PrincipalArgs where
  tenantId : UUID
  subjectId : Str
  scopes : List Str := []
  actorId : Option Str := none
  clientId : Option Str := none
  issuedAt : Datetime
  authenticationTime : Option Datetime := none
  expiresAt : Option Datetime := none
  credentialRef : Option Str := none
deriving DecidableEq

/-- `Principal.__post_init__`, of scopes without duplicates. -/
def PrincipalArgs.postInit (p : PrincipalArgs) : Except PyError Unit := do
  validateIdentifier "subject_id" p.subjectId
  validateIdentifier "actor_id" p.actorId
  validateIdentifier "client_id" p.clientId
  validateIdentifier "credential_ref" p.credentialRef
  check (p.scopes.length ≤ maxScopes)
    (.configuration "Principal scopes may contain at most 256 items.")
  check (p.scopes.all isScope) (.configuration "Principal contains an invalid scope name.")
  check (p.authenticationTime.all fun t => t ≤ p.issuedAt)
    (.configuration "Principal authentication_time must not be after issued_at.")
  check (p.expiresAt.all fun t => p.issuedAt < t)
    (.configuration "Principal expires_at must be after issued_at.")

/-- `Principal`. -/
structure Principal extends PrincipalArgs where
  nodup : scopes.Nodup
  valid : toPrincipalArgs.postInit = .ok ()
deriving DecidableEq

/-- What the constructor checks. -/
structure PrincipalArgs.Valid (p : PrincipalArgs) : Prop where
  subject : isIdentifier p.subjectId = true
  actor : ∀ a ∈ p.actorId, isIdentifier a = true
  client : ∀ c ∈ p.clientId, isIdentifier c = true
  credential : ∀ c ∈ p.credentialRef, isIdentifier c = true
  count : p.scopes.length ≤ maxScopes
  scopes : ∀ s ∈ p.scopes, isScope s = true
  authenticated : ∀ t ∈ p.authenticationTime, t ≤ p.issuedAt
  expires : ∀ t ∈ p.expiresAt, p.issuedAt < t

theorem PrincipalArgs.postInit_eq_ok {p : PrincipalArgs} : p.postInit = .ok () ↔ p.Valid := by
  simp only [PrincipalArgs.postInit, validateIdentifier, bind_eq_ok, check_eq_ok,
    Option.all_eq_true, decide_eq_true_eq, List.all_eq_true]
  constructor
  · rintro ⟨-, h1, -, h2, -, h3, -, h4, -, h5, -, h6, -, h7, h8⟩
    exact ⟨h1 _ rfl, h2, h3, h4, h5, h6, h7, h8⟩
  · intro h
    refine ⟨(), ?_, (), h.actor, (), h.client, (), h.credential, (), h.count, (), h.scopes, (),
      h.authenticated, h.expires⟩
    rintro s hs
    cases hs
    exact h.subject

/-- A short text of printable characters is an identifier. -/
theorem isIdentifier_of_between {s : Str} (hne : s ≠ []) (hlength : s.length ≤ 512)
    (h : ∀ c ∈ s, c.between '!' '~' = true) : isIdentifier s = true := by
  have hspace : ∀ c ∈ s, c.isSpace = false := fun c hc => PyChar.isSpace_of_between (h c hc)
  have hdrop : s.dropWhile PyChar.isSpace = s := by
    obtain ⟨c, rest, rfl⟩ := List.exists_cons_of_ne_nil hne
    rw [List.dropWhile_cons, if_neg (by simp [hspace c List.mem_cons_self])]
  have hstrip : s.strip = s := by
    rw [Str.strip, hdrop, List.rdropWhile_eq_self_iff]
    intro hne'
    simp [hspace _ (List.getLast_mem hne')]
  have hcontrol : ∀ c ∈ s, 32 ≤ c.ord ∧ c.ord ≠ 127 := by
    intro c hc
    have hbounds : '!'.toNat ≤ c.ord ∧ c.ord ≤ '~'.toNat := of_decide_eq_true (h c hc)
    simp only [show '!'.toNat = 33 from rfl, show '~'.toNat = 126 from rfl] at hbounds
    omega
  refine decide_eq_true ⟨hne, hstrip.symm, hlength, fun hany => ?_⟩
  obtain ⟨c, hc, hctl⟩ := List.any_eq_true.mp hany
  obtain ⟨hlow, hdel⟩ := hcontrol c hc
  rcases of_decide_eq_true hctl with hctl | hctl
  · omega
  · exact hdel hctl

namespace Principal

/-- `Principal(...)`. -/
def make (p : PrincipalArgs) : Except PyError Principal :=
  match h : PrincipalArgs.postInit { p with scopes := p.scopes.dedup } with
  | .ok () => .ok ⟨{ p with scopes := p.scopes.dedup }, p.scopes.nodup_dedup, h⟩
  | .error e => .error e

theorem make_eq_ok {p : PrincipalArgs} {q : Principal} (h : make p = .ok q) :
    q.toPrincipalArgs = { p with scopes := p.scopes.dedup } := by
  unfold make at h
  split at h
  · cases h
    rfl
  · cases h

theorem make_ok {p : PrincipalArgs} (h : PrincipalArgs.Valid { p with scopes := p.scopes.dedup }) :
    ∃ q, make p = .ok q := by
  unfold make
  split
  · exact ⟨_, rfl⟩
  · rename_i e herr
    rw [PrincipalArgs.postInit_eq_ok.mpr h] at herr
    cases herr

end Principal

end FastapiEffects
