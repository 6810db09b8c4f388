/-
  Grainlift.Server.Principals — what a principal key says of whom it is for
  (`SessionManager::principal`, `TargetAuthorizer`; session.rs).

  The key is one string: the domain, a NUL, the principal's name; nobody's is "\0anonymous".
  The authorizer reads the name back out of it, as what follows the first NUL. A name may
  hold NULs of its own. A domain holds none and is not empty (`AuthContext.WellFormed`):
  the code checks neither, and an authenticator of vgi_rpc gives no other.

  Proved (`principal_permissions`): two keys are equal exactly if they are for the same
  identity; with `require_authentication` nobody else has one; and what the authorizer
  allows is said of the identity and the permission map alone.
  Without the assumption on domains two identities can share a key.
-/

import Grainlift.Server.Access

namespace Grainlift.Server

open Grainlift.Lib Grainlift.Protocol

structure AuthContext.WellFormed (a : AuthContext) : Prop where
  domain : a.authenticated = true → a.domain ≠ "" ∧ '\x00' ∉ a.domain.toList

namespace AuthContext

/-- The domain and the name in the key. -/
def keyDomain (a : AuthContext) : String := if a.authenticated then a.domain else ""

def keyName (a : AuthContext) : String := if a.authenticated then a.principal else "anonymous"

def key (a : AuthContext) : String := a.keyDomain ++ "\x00" ++ a.keyName

/-- The same identity: nobody, or the same name in the same domain. -/
def Same (a b : AuthContext) : Prop :=
  (a.authenticated = false ∧ b.authenticated = false) ∨
    (a.authenticated = true ∧ b.authenticated = true ∧ a.domain = b.domain ∧ a.principal = b.principal)

end AuthContext

section Keys

variable {requireAuthentication : Bool} {a b : AuthContext} {k : String}

theorem principalKey_ok_iff : principalKey requireAuthentication a = .ok k ↔
    (requireAuthentication = true → a.authenticated = true) ∧ k = a.key := by
  unfold principalKey AuthContext.key AuthContext.keyDomain AuthContext.keyName
  cases requireAuthentication <;> cases a.authenticated <;> simp [eq_comm]

/-- No NUL comes before the one the key is cut at. -/
theorem AuthContext.WellFormed.keyDomain_nul (ha : a.WellFormed) : '\x00' ∉ a.keyDomain.toList := by
  unfold AuthContext.keyDomain
  split
  · rename_i hauth
    exact (ha.domain hauth).2
  · simp

theorem AuthContext.WellFormed.keyDomain_eq (ha : a.WellFormed) : a.keyDomain = "" ↔ a.authenticated = false := by
  unfold AuthContext.keyDomain
  split
  · rename_i hauth
    simp [hauth, (ha.domain hauth).1]
  · rename_i hauth
    simp [hauth]

theorem principalName_cut {domain name : String} (h : '\x00' ∉ domain.toList) :
    principalName (domain ++ "\x00" ++ name) = name := by
  have hlist : (domain ++ "\x00" ++ name).toList = domain.toList ++ '\x00' :: name.toList := by
    rw [String.toList_append, String.toList_append, List.append_assoc]
    rfl
  have hdomain : ∀ c ∈ domain.toList, decide (c ≠ '\x00') = true := by
    intro c hc
    have hne : c ≠ '\x00' := ne_of_mem_of_not_mem hc h
    simpa using hne
  unfold principalName
  rw [hlist, List.dropWhile_append_of_pos hdomain, List.dropWhile_cons_of_neg (by simp)]
  exact String.ofList_toList

@[simp] theorem principalName_key (ha : a.WellFormed) : principalName a.key = a.keyName :=
  principalName_cut ha.keyDomain_nul

/-- A key says whose it is. -/
theorem key_eq_iff (ha : a.WellFormed) (hb : b.WellFormed) : a.key = b.key ↔ a.Same b := by
  constructor
  · intro h
    have hname : a.keyName = b.keyName := by
      have hcut := congrArg principalName h
      rwa [principalName_key ha, principalName_key hb] at hcut
    have hdomain : a.keyDomain = b.keyDomain := by
      unfold AuthContext.key at h
      rw [hname] at h
      have hlist := congrArg String.toList h
      simp only [String.toList_append, List.append_left_inj] at hlist
      exact String.toList_inj.mp hlist
    cases hauth : a.authenticated with
    | false =>
      have hnone := (ha.keyDomain_eq).mpr hauth
      rw [hdomain] at hnone
      exact .inl ⟨hauth, hb.keyDomain_eq.mp hnone⟩
    | true =>
      have hsome : b.authenticated = true := by
        cases hauth' : b.authenticated with
        | true => rfl
        | false =>
          have hnone := hb.keyDomain_eq.mpr hauth'
          rw [← hdomain, ha.keyDomain_eq, hauth] at hnone
          cases hnone
      simp only [AuthContext.keyDomain, hauth, hsome, if_true] at hdomain
      simp only [AuthContext.keyName, hauth, hsome, if_true] at hname
      exact .inr ⟨hauth, hsome, hdomain, hname⟩
  · intro h
    rcases h with ⟨hauth, hauth'⟩ | ⟨hauth, hauth', hdomain, hname⟩
    · simp [AuthContext.key, AuthContext.keyDomain, AuthContext.keyName, hauth, hauth']
    · simp [AuthContext.key, AuthContext.keyDomain, AuthContext.keyName, hauth, hauth', hdomain, hname]

end Keys

/-! ## Permissions -/

/-- The entry grants the target. -/
def Grants (target : String) (targets : List String) : Prop := target ∈ targets ∨ "*" ∈ targets

/-- What a permission map allows an identity. -/
def Permitted (permissions : Table String (List String)) (a : AuthContext) (target : String) : Prop :=
  permissions.entries = [] ∨
  (∃ targets, permissions.lookup a.keyName = some targets ∧ Grants target targets) ∨
  (permissions.lookup a.keyName = none ∧ ∃ targets, permissions.lookup a.key = some targets ∧ Grants target targets)

theorem allows_iff {a : AuthContext} (ha : a.WellFormed) (permissions : Table String (List String)) (target : String) :
    (TargetAuthorizer.new permissions).allows a.key target = true ↔ Permitted permissions a target := by
  unfold TargetAuthorizer.new Permitted
  split
  · rename_i hempty
    rw [List.isEmpty_iff] at hempty
    simp [TargetAuthorizer.allows, hempty]
  · rename_i hne
    rw [List.isEmpty_iff] at hne
    unfold TargetAuthorizer.allows Grants
    dsimp only
    rw [principalName_key ha]
    cases hname : permissions.lookup a.keyName with
    | some targets => simp [hne, or_comm]
    | none =>
      cases hkey : permissions.lookup a.key with
      | some targets => simp [hne, or_comm]
      | none => simp [hne]

theorem not_permitted {permissions : Table String (List String)} {a : AuthContext} (hne : permissions.entries ≠ [])
    (hname : permissions.lookup a.keyName = none) (hkey : permissions.lookup a.key = none) (target : String) :
    ¬ Permitted permissions a target := by
  intro h
  rcases h with hempty | ⟨targets, hl, -⟩ | ⟨-, targets, hl, -⟩
  · exact hne hempty
  · rw [hname] at hl
    cases hl
  · rw [hkey] at hl
    cases hl

/-- Who has a principal key, that it tells principals apart, and exactly when the permissions
    allow its target. -/
theorem principal_permissions (requireAuthentication : Bool) (a b : AuthContext) (ha : a.WellFormed) (hb : b.WellFormed) :
    -- who has a key
    ((∃ k, principalKey requireAuthentication a = .ok k) ↔
      (requireAuthentication = true → a.authenticated = true)) ∧
    -- whose it is
    (∀ ka kb, principalKey requireAuthentication a = .ok ka → principalKey requireAuthentication b = .ok kb →
      (ka = kb ↔ (a.authenticated = false ∧ b.authenticated = false) ∨
        (a.authenticated = true ∧ b.authenticated = true ∧ a.domain = b.domain ∧ a.principal = b.principal))) ∧
    -- what it allows
    (∀ k, principalKey requireAuthentication a = .ok k → ∀ (permissions : Table String (List String)) (target : String),
      let name := if a.authenticated then a.principal else "anonymous"
      let full := if a.authenticated then a.domain ++ "\x00" ++ a.principal else "\x00anonymous"
      ((TargetAuthorizer.new permissions).allows k target = true ↔ permissions.entries = [] ∨
        (∃ targets, permissions.lookup name = some targets ∧ (target ∈ targets ∨ "*" ∈ targets)) ∨
        (permissions.lookup name = none ∧
          ∃ targets, permissions.lookup full = some targets ∧ (target ∈ targets ∨ "*" ∈ targets))) ∧
      (permissions.entries ≠ [] → permissions.lookup name = none → permissions.lookup full = none →
        (TargetAuthorizer.new permissions).allows k target = false)) := by
  refine ⟨?_, ?_, ?_⟩
  · constructor
    · intro h
      obtain ⟨k, hk⟩ := h
      exact (principalKey_ok_iff.mp hk).1
    · intro h
      exact ⟨a.key, principalKey_ok_iff.mpr ⟨h, rfl⟩⟩
  · intro ka kb hka hkb
    rw [(principalKey_ok_iff.mp hka).2, (principalKey_ok_iff.mp hkb).2]
    exact key_eq_iff ha hb
  · intro k hk permissions target name full
    have hfull : full = a.key := by
      unfold full AuthContext.key AuthContext.keyDomain AuthContext.keyName
      cases a.authenticated <;> rfl
    rw [(principalKey_ok_iff.mp hk).2, hfull]
    refine ⟨allows_iff ha permissions target, ?_⟩
    intro hne hname hkey
    rw [Bool.eq_false_iff]
    intro hallows
    exact not_permitted hne hname hkey target ((allows_iff ha permissions target).mp hallows)

/-- Two people of one name, a NUL in it, in two domains; only the one is listed. -/
def corpUser : AuthContext := ⟨true, "corp", "al\x00ice"⟩

def labUser : AuthContext := ⟨true, "lab", "al\x00ice"⟩

def corpOnly : Table String (List String) :=
  Table.insertAll ∅ [("anonymous", ["public"]), ("corp\x00al\x00ice", ["*"])]

theorem principal_permissions_corp :
    (∃ ka kb, principalKey true corpUser = .ok ka ∧ principalKey true labUser = .ok kb ∧ ka ≠ kb ∧
      (TargetAuthorizer.new corpOnly).allows ka "main" = true ∧
      (TargetAuthorizer.new corpOnly).allows kb "main" = false) := by
  have hc : corpUser.WellFormed := ⟨fun _ => by decide⟩
  have hl : labUser.WellFormed := ⟨fun _ => by decide⟩
  obtain ⟨hkey, hsame, hallows⟩ := principal_permissions true corpUser labUser hc hl
  obtain ⟨hkey', -, hallows'⟩ := principal_permissions true labUser corpUser hl hc
  obtain ⟨ka, hka⟩ := hkey.mpr fun _ => rfl
  obtain ⟨kb, hkb⟩ := hkey'.mpr fun _ => rfl
  refine ⟨ka, kb, hka, hkb, ?_, ?_, ?_⟩
  · intro heq
    rcases (hsame ka kb hka hkb).mp heq with ⟨h, -⟩ | ⟨-, -, h, -⟩
    · cases h
    · exact absurd h (by decide)
  · exact (hallows ka hka corpOnly "main").1.mpr (.inr (.inr ⟨rfl, ["*"], rfl, .inr List.mem_cons_self⟩))
  · exact (hallows' kb hkb corpOnly "main").2 (by decide) rfl rfl

/-- With a NUL in a domain two identities share a key. -/
example : principalKey true ⟨true, "corp", "a\x00b"⟩ = principalKey true ⟨true, "corp\x00a", "b"⟩ := rfl

end Grainlift.Server
