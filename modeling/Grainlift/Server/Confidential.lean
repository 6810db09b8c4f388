/-
  Grainlift.Server.Confidential — what clients can learn of the connection options a
  target is configured with (`get_connection_option`, service.rs; `ClientOptionPolicy`,
  config.rs; the README on targets and credentials).

  The backend's connections keep their options: an open gives a connection the merged
  options of Grainlift.Server.Backend, a set that succeeds adds one, a get answers what
  is kept under its key in the type it asks for. All other answers of the driver come
  with the events, so they do not depend on options. The server is that of
  Grainlift.Server.Tenants, run under two configurations whose targets have the same
  option keys with different values.

  A client may not set a configured option; nothing keeps it from reading one.
  Proved (`confidential`): while no get of a configured key reaches the driver, and the
  configured values decode alike, every run answers every request alike under both
  configurations. `token_read_back`: a get of a configured token answers the token.
-/

import Grainlift.Protocol.Errors
import Grainlift.Server.Backend
import Grainlift.Server.Tenants

namespace Grainlift.Server.Confidential

open Grainlift.Lib Grainlift.Protocol Function
open Tenants (built)

/-! ## A backend that keeps options -/

abbrev Store := Table String OptionValue

structure Keeper where
  base64 : Base64
  hashing : Backend.Hashing
  /-- The error for an option that is not kept in the type asked for. -/
  missing : (key valueType : String) → AdbcError

/-- The driver as it answers a connection call on a connection that keeps `store`. -/
def Keeper.answers (b : Keeper) (store : Store) (d : Driver) : ConnectionOp → Driver
  | .getOption key _ =>
    { d with
      optionString := match store.lookup key with
        | some (.string v) => .ok v
        | _ => .error (b.missing key "string")
      optionBytes := match store.lookup key with
        | some (.bytes v) => .ok v
        | _ => .error (b.missing key "bytes")
      optionInt := match store.lookup key with
        | some (.int v) => .ok v
        | _ => .error (b.missing key "int")
      optionDouble := match store.lookup key with
        | some (.double v) => .ok v
        | _ => .error (b.missing key "double") }
  | _ => d

/-- What a connection made by these calls keeps. -/
def given : List Backend.ManagerCall → Store
  | [] => ∅
  | .newConnection options :: _ => Table.insertAll ∅ options
  | _ :: rest => given rest

structure St where
  base : Tenants.St
  /-- What the connection of each open keeps, by the open's number. -/
  pending : Nat → Store
  /-- What the connection of each session keeps. -/
  stores : String → Store

def init : St := ⟨Tenants.init, fun _ => ∅, fun _ => ∅⟩

inductive Ev where
  | base (e : Tenants.Ev)
  /-- The `backend.open` a request waits for ends; the driver manager's answers. -/
  | backendOpens (n : Nat) (load newDatabase newConnection : Except AdbcError Unit)

/-! ## Steps -/

/-- The session and the connection call an event has its driver answer. -/
def connectionCall (s : Tenants.St) : Tenants.Ev → Option (String × ConnectionOp × Driver)
  | .proceed n m => do
    let r ← s.requests[n]?
    match r.stage with
    | .running id (.call (.job (.connection op)) _) =>
      if m.fate = .answered ∧ op.reaches then some (id, op, m.world.driver) else none
    | _ => none
  | .late k w => do
    let l ← s.late[k]?
    match l.job with
    | .connection op => if op.reaches then some (l.session, op, w.driver) else none
    | _ => none
  | _ => none

def withDriver (d : Driver) : Tenants.Ev → Tenants.Ev
  | .proceed n m => .proceed n { m with world := { m.world with driver := d } }
  | .late k w => .late k { w with driver := d }
  | e => e

/-- The event as the backend has it. -/
def Keeper.answered (b : Keeper) (s : St) (e : Tenants.Ev) : Tenants.Ev :=
  match connectionCall s.base e with
  | some (id, op, d) => withDriver (b.answers (s.stores id) d op) e
  | none => e

/-- The open a request is in, and the options it asked for. -/
def openOf (s : Tenants.St) (n : Nat) : Option (Nat × List (String × OptionValue) × List (String × OptionValue)) := do
  let r ← s.requests[n]?
  match r.stage with
  | .opening i database connection => some (i, database, connection)
  | _ => none

section Machine

variable (b : Keeper) (host : Host) (srv : Service)

/-- A set that succeeds is kept. -/
def kept (stores : String → Store) : Option (String × ConnectionOp × Driver) → String → Store
  | some (id, .setOption key value, d) =>
    match d.unit with
    | .ok () => update stores id ((stores id).insert key value)
    | .error _ => stores
  | _ => stores

/-- The session a move builds, and the open it is of. -/
def builds (s : Tenants.St) (n : Nat) (m : Admission.Move Unit) : Option (Nat × String) := do
  let (i, _, _) ← openOf s n
  let (id, _) ← built srv s n i m
  return (i, id)

/-- What the connections of the sessions keep after an event. -/
def stored (s : St) (e : Tenants.Ev) : String → Store :=
  match e with
  | .move n m =>
    match builds srv s.base n m with
    | some (i, id) => update s.stores id (s.pending i)
    | none => s.stores
  | e => kept s.stores (connectionCall s.base e)

/-- `DriverManagerBackend::open` for the request `n`. -/
def backendOpens (s : St) (n : Nat) (load newDatabase newConnection : Except AdbcError Unit) : Option St := do
  let (i, database, connection) ← openOf s.base n
  let o ← s.base.front.opens[i]?
  let target ← srv.config.targets.lookup o.target
  match o.backend with
  | .running =>
    let r := Backend.openConnection srv.unicode b.base64 b.hashing
      ⟨load, fun _ => newDatabase, fun _ => newConnection⟩ target database connection
    some { s with
      base := Tenants.step host srv s.base (.move n (.backendReturns r.1))
      pending := update s.pending i (given r.2) }
  | _ => none

def step (s : St) : Ev → St
  -- a backend returns what it came to, in `backendOpens`
  | .base (.move _ (.backendReturns _)) => s
  | .base e => { s with base := Tenants.step host srv s.base (b.answered s e), stores := stored srv s e }
  | .backendOpens n load newDatabase newConnection =>
    (backendOpens b host srv s n load newDatabase newConnection).getD s

def machine : Machine St Ev where
  init := (· = init)
  step := step b host srv

/-- The answers the clients have, by request. -/
def responses (s : St) : List (Option (Except RpcError Reply)) :=
  s.base.requests.map fun r =>
    match r.stage with
    | .finished reply => some reply
    | _ => none

end Machine

/-! ## Two configurations -/

/-- The same service with its targets configured otherwise. -/
def withTargets (srv : Service) (targets : Table String TargetConfig) : Service :=
  { srv with config := { srv.config with targets := targets } }

theorem withTargets_unicode (srv : Service) (targets : Table String TargetConfig) :
    (withTargets srv targets).unicode = srv.unicode := rfl

/-- Only the values of the configured connection options differ. -/
structure DifferInValues (c c' : TargetConfig) : Prop where
  rest : c' = { c with connectionOptions := c'.connectionOptions }
  keys : c'.connectionOptions.map (·.key) = c.connectionOptions.map (·.key)

/-- The first configured value that is not valid base64, if any: what it fails with. -/
def decodeError (base64 : Base64) : List WireOption → Option ProtocolError
  | [] => none
  | option :: rest =>
    match Backend.intoAdbc base64 option.value with
    | .error e => some e
    | .ok _ => decodeError base64 rest

/-- The keys of the connection options configured for a target. -/
def configuredKeys (srv : Service) (target : String) : List String :=
  ((srv.config.targets.lookup target).map fun c => c.connectionOptions.map (·.key)).getD []

/-- The configured keys of a session's connection. -/
def sessionKeys (srv : Service) (s : Tenants.St) (id : String) : List String :=
  ((s.objects id).map fun o => configuredKeys srv o.target).getD []

/-- The event has the driver read no configured option. -/
def Spares (srv : Service) (s : St) : Ev → Prop
  | .base e =>
    match connectionCall s.base e with
    | some (id, .getOption key _, _) => key ∉ sessionKeys srv s.base id
    | _ => True
  | .backendOpens _ _ _ _ => True

/-! ## The server does not read the values -/

section Service

variable {host : Host} {srv : Service} {targets : Table String TargetConfig}

theorem DifferInValues.policy {c c' : TargetConfig} (h : DifferInValues c c') :
    c'.connectionOptionPolicy = c.connectionOptionPolicy := by
  have hkeys := h.keys
  rw [h.rest]
  simp only [TargetConfig.connectionOptionPolicy, ClientOptionPolicy.new, hkeys]

theorem route_withTargets (srv : Service) (targets : Table String TargetConfig) (ctx : CallContext)
    (invocation : Invocation) :
    route (withTargets srv targets) ctx invocation = route srv ctx invocation := by
  cases invocation with
  | request method request => cases method <;> rfl
  | exchange cursor input => rfl
  | exchangeCancel cursor => rfl
  | produce cursor => rfl
  | produceCancel cursor => rfl

/-- Two configurations of the targets, only the values of connection options apart. -/
def Paired (srv : Service) (targets : Table String TargetConfig) : Prop :=
  ∀ name, Option.Rel DifferInValues (srv.config.targets.lookup name) (targets.lookup name)

theorem Paired.lookup (h : Paired srv targets) (name : String) :
    (srv.config.targets.lookup name = none ∧ targets.lookup name = none) ∨
    ∃ c c', srv.config.targets.lookup name = some c ∧ targets.lookup name = some c' ∧ DifferInValues c c' := by
  have hrel := h name
  cases hc : srv.config.targets.lookup name with
  | none =>
    rw [hc] at hrel
    generalize targets.lookup name = c' at hrel
    cases hrel
    exact .inl ⟨rfl, rfl⟩
  | some c =>
    rw [hc] at hrel
    generalize targets.lookup name = c' at hrel
    cases hrel with
    | some hd => exact .inr ⟨c, _, rfl, rfl, hd⟩

theorem policyOf_withTargets (h : Paired srv targets) (target : String) :
    Tenants.policyOf (withTargets srv targets) target = Tenants.policyOf srv target := by
  show ((targets.lookup target).map TargetConfig.connectionOptionPolicy).getD _ = _
  unfold Tenants.policyOf
  rcases h.lookup target with ⟨h1, h2⟩ | ⟨c, c', h1, h2, hd⟩
  · rw [h1, h2]
  · rw [h1, h2]
    exact hd.policy

/-- An open is authorized alike. -/
theorem authorize_withTargets (h : Paired srv targets) (p target : String) :
    (Admission.authorize (withTargets srv targets).config p target).map (fun _ => ()) =
      (Admission.authorize srv.config p target).map fun _ => () := by
  unfold Admission.authorize
  by_cases ha : srv.config.authorizer.allows p target = true
  · have ha' : (withTargets srv targets).config.authorizer.allows p target = true := ha
    rw [if_pos ha, if_pos ha']
    rcases h.lookup target with ⟨h1, h2⟩ | ⟨c, c', h1, h2, -⟩
    · have h2' : (withTargets srv targets).config.targets.lookup target = none := h2
      rw [h1, h2']
    · have h2' : (withTargets srv targets).config.targets.lookup target = some c' := h2
      rw [h1, h2']
      rfl
  · have ha' : ¬ (withTargets srv targets).config.authorizer.allows p target = true := ha
    rw [if_neg ha, if_neg ha']

theorem admission_withTargets (h : Paired srv targets) (a : Admission.St Unit) (e : Admission.Ev Unit) :
    Admission.step (withTargets srv targets).config a e = Admission.step srv.config a e := by
  cases e with
  | «open» p target =>
    have ha := authorize_withTargets h p target
    simp only [Admission.step]
    generalize Admission.authorize (withTargets srv targets).config p target = r' at ha ⊢
    generalize Admission.authorize srv.config p target = r at ha ⊢
    cases r <;> cases r' <;> cases ha <;> rfl
  | move i m =>
    simp only [Admission.step]
    cases a.opens[i]? with
    | none => rfl
    | some o => cases m <;> rfl
  | get | dropReference | close | reapExpired | closeAllStore | closeAllTake | tick => rfl

theorem built_withTargets (h : Paired srv targets) (s : Tenants.St) (n i : Nat) (m : Admission.Move Unit) :
    built (withTargets srv targets) s n i m = built srv s n i m := by
  unfold built
  simp only [policyOf_withTargets h]

theorem arrives_withTargets (h : Paired srv targets) (s : Tenants.St) (ctx : CallContext) (invocation : Invocation) :
    Tenants.arrives (withTargets srv targets) s ctx invocation = Tenants.arrives srv s ctx invocation := by
  unfold Tenants.arrives
  rw [route_withTargets]
  simp only [admission_withTargets h]

theorem proceeds_withTargets (h : Paired srv targets) (s : Tenants.St) (n : Nat) (r : Tenants.Served) (m : Moment) :
    Tenants.proceeds host (withTargets srv targets) s n r m = Tenants.proceeds host srv s n r m := by
  unfold Tenants.proceeds
  simp only [admission_withTargets h]
  rfl

theorem step_withTargets (h : Paired srv targets) (s : Tenants.St) (e : Tenants.Ev) :
    Tenants.step host (withTargets srv targets) s e = Tenants.step host srv s e := by
  unfold Tenants.step Tenants.next
  cases e with
  | arrive ctx invocation => simp only [arrives_withTargets h]
  | proceed n m => simp only [proceeds_withTargets h]
  | move n m => simp only [admission_withTargets h, built_withTargets h]
  | late k w => rfl
  | chore c => simp only [admission_withTargets h]

end Service

/-! ## Opening alike -/

section Open

variable {unicode : Unicode} {base64 : Base64} {hashing : Backend.Hashing} {configured configured' : List WireOption}
  {client : List (String × OptionValue)} {c c' : TargetConfig}

theorem insertConfigured_error {e : ProtocolError} (h : decodeError base64 configured = some e) (t : Store) :
    Backend.insertConfigured unicode base64 configured t =
      .error (.withMessageAndStatus (Backend.errorText unicode e) .invalidArguments) := by
  induction configured generalizing t with
  | nil => cases h
  | cons option rest ih =>
    unfold decodeError at h
    unfold Backend.insertConfigured
    cases hv : Backend.intoAdbc base64 option.value with
    | error e' =>
      rw [hv] at h
      cases h
      rfl
    | ok v =>
      rw [hv] at h
      exact ih h _

theorem decodeError_none (h : decodeError base64 configured = none) : Backend.Decodes base64 configured := by
  induction configured with
  | nil =>
    intro o ho
    cases ho
  | cons option rest ih =>
    unfold decodeError at h
    split at h
    · cases h
    · rename_i v hv
      intro o ho
      rcases List.mem_cons.mp ho with rfl | ho
      · exact ⟨v, hv⟩
      · exact ih h o ho

/-- The same but for the values under `keys`. -/
def AgreeOff (keys : List String) (t t' : Store) : Prop := ∀ key, key ∉ keys → t'.lookup key = t.lookup key

theorem AgreeOff.refl (keys : List String) (t : Store) : AgreeOff keys t t := fun _ _ => rfl

theorem AgreeOff.insert {keys : List String} {t t' : Store} (h : AgreeOff keys t t') (key : String)
    (value : OptionValue) :
    AgreeOff keys (t.insert key value) (t'.insert key value) := by
  intro k hk
  by_cases hkey : k = key
  · subst hkey
    rw [AList.lookup_insert, AList.lookup_insert]
  · rw [AList.lookup_insert_ne hkey, AList.lookup_insert_ne hkey]
    exact h k hk

/-- Two configurations of the same keys, over the same options. -/
theorem insertConfigured_alike (hk : configured'.map (·.key) = configured.map (·.key))
    (he : decodeError base64 configured' = decodeError base64 configured) (t : Store) :
    (∃ e, Backend.insertConfigured unicode base64 configured t = .error e ∧
      Backend.insertConfigured unicode base64 configured' t = .error e) ∨
    ∃ merged merged', Backend.insertConfigured unicode base64 configured t = .ok merged ∧
      Backend.insertConfigured unicode base64 configured' t = .ok merged' ∧
        AgreeOff (configured.map (·.key)) merged merged' := by
  cases hd : decodeError base64 configured with
  | some e => exact .inl ⟨_, insertConfigured_error hd t, insertConfigured_error (he.trans hd) t⟩
  | none =>
    obtain ⟨merged, hm⟩ := Backend.insertConfigured_decodes (decodeError_none hd) t
    obtain ⟨merged', hm'⟩ := Backend.insertConfigured_decodes (decodeError_none (he.trans hd)) t
    refine .inr ⟨merged, merged', hm, hm', ?_⟩
    obtain ⟨l, hl, rfl, -⟩ := Backend.insertConfigured_ok hm
    obtain ⟨l', hl', rfl, -⟩ := Backend.insertConfigured_ok hm'
    intro key hkey
    rw [Table.lookup_insertAll_of_notMem _ (by rwa [hl', hk]), Table.lookup_insertAll_of_notMem _ (by rwa [hl])]

/-- A connection keeps what it was given, whatever the order. -/
theorem insertAll_order (hashing : Backend.Hashing) (t : Store) (key : String) :
    (Table.insertAll ∅ (hashing.order t)).lookup key = t.lookup key := by
  cases h : t.lookup key with
  | some v => exact Table.lookup_insertAll_of_mem _ (Backend.order_nodup hashing t) ((Backend.order_mem hashing).mpr h)
  | none =>
    have hkey : key ∉ (hashing.order t).map Prod.fst := by
      intro hm
      obtain ⟨⟨k, v⟩, hkv, rfl⟩ := List.mem_map.mp hm
      rw [(Backend.order_mem hashing).mp hkv] at h
      cases h
    rw [Table.lookup_insertAll_of_notMem _ hkey]
    rfl

theorem mergeOptions_alike (hd : DifferInValues c c')
    (he : decodeError base64 c'.connectionOptions = decodeError base64 c.connectionOptions)
    (client : List (String × OptionValue)) (kind : String) :
    (∃ e, Backend.mergeOptions unicode base64 client c.connectionOptions c.connectionOptionPolicy kind = .error e ∧
      Backend.mergeOptions unicode base64 client c'.connectionOptions c'.connectionOptionPolicy kind = .error e) ∨
    ∃ merged merged', Backend.mergeOptions unicode base64 client c.connectionOptions c.connectionOptionPolicy kind =
      .ok merged ∧
      Backend.mergeOptions unicode base64 client c'.connectionOptions c'.connectionOptionPolicy kind = .ok merged' ∧
      AgreeOff (c.connectionOptions.map (·.key)) merged merged' := by
  unfold Backend.mergeOptions
  rw [hd.policy]
  cases Backend.firstRejected c.connectionOptionPolicy client with
  | some key => exact .inl ⟨_, rfl, rfl⟩
  | none => exact insertConfigured_alike hd.keys he _

/-- Two opens of a target, its values apart: the same answer, and connections that keep
    the same but under the configured keys. -/
theorem openConnection_alike (hd : DifferInValues c c')
    (he : decodeError base64 c'.connectionOptions = decodeError base64 c.connectionOptions)
    (load newDatabase newConnection : Except AdbcError Unit) (database connection : List (String × OptionValue)) :
    let manager : Backend.Manager := ⟨load, fun _ => newDatabase, fun _ => newConnection⟩
    (Backend.openConnection unicode base64 hashing manager c' database connection).1 =
      (Backend.openConnection unicode base64 hashing manager c database connection).1 ∧
    AgreeOff (c.connectionOptions.map (·.key))
      (given (Backend.openConnection unicode base64 hashing manager c database connection).2)
      (given (Backend.openConnection unicode base64 hashing manager c' database connection).2) := by
  have hdb : c'.databaseOptions = c.databaseOptions ∧
      Backend.databaseOptionPolicy c' = Backend.databaseOptionPolicy c := by
    rw [hd.rest]
    exact ⟨rfl, rfl⟩
  unfold Backend.openConnection
  simp only [hdb.1, hdb.2]
  cases load with
  | error e => exact ⟨rfl, .refl _ _⟩
  | ok _ =>
    simp only
    cases Backend.mergeOptions unicode base64 database c.databaseOptions (Backend.databaseOptionPolicy c) "database" with
    | error e => exact ⟨rfl, .refl _ _⟩
    | ok merged =>
      simp only
      rcases mergeOptions_alike hd he connection "connection" with ⟨e, h1, h2⟩ | ⟨m, m', h1, h2, hoff⟩
      · rw [h1, h2]
        exact ⟨rfl, .refl _ _⟩
      · rw [h1, h2]
        cases newDatabase with
        | error e => exact ⟨rfl, .refl _ _⟩
        | ok _ =>
          refine ⟨rfl, ?_⟩
          intro key hkey
          show AList.lookup key (Table.insertAll ∅ _) = AList.lookup key (Table.insertAll ∅ _)
          rw [insertAll_order, insertAll_order]
          exact hoff key hkey

end Open

/-! ## Two runs -/

section Runs

variable {b : Keeper} {host : Host} {srv : Service} {targets : Table String TargetConfig} {s t : St}

theorem AgreeOff.mono {keys keys' : List String} {u u' : Store} (h : AgreeOff keys u u') (hk : keys ⊆ keys') :
    AgreeOff keys' u u' := fun key hkey => h key fun hm => hkey (hk hm)

/-- One store of many is replaced on both sides. -/
theorem update_alike {ι : Type} [DecidableEq ι] {keys : ι → List String} {f f' : ι → Store}
    (h : ∀ j, AgreeOff (keys j) (f j) (f' j)) {i : ι} {u u' : Store} (hu : AgreeOff (keys i) u u') (j : ι) :
    AgreeOff (keys j) (update f i u j) (update f' i u' j) := by
  by_cases hj : j = i
  · subst hj
    rw [update_self, update_self]
    exact hu
  · rw [update_of_ne hj, update_of_ne hj]
    exact h j

def openKeys (srv : Service) (s : Tenants.St) (i : Nat) : List String :=
  ((s.front.opens[i]?).map fun o => configuredKeys srv o.target).getD []

/-- The two servers are in the same state, and their connections keep the same but under
    the configured keys. -/
structure Alike (srv : Service) (s t : St) : Prop where
  base : t.base = s.base
  pending : ∀ i, AgreeOff (openKeys srv s.base i) (s.pending i) (t.pending i)
  stores : ∀ id, AgreeOff (sessionKeys srv s.base id) (s.stores id) (t.stores id)

theorem sessionKeys_later {s : Tenants.St} (hi : Tenants.Inv srv s) (e : Tenants.Ev) (id : String) :
    sessionKeys srv s id ⊆ sessionKeys srv (Tenants.step host srv s e) id := by
  rcases @Tenants.step_does host srv s e with heq | hd
  · rw [heq]
    exact List.Subset.refl _
  · unfold sessionKeys
    cases ho : s.objects id with
    | none => exact List.nil_subset _
    | some o =>
      obtain ⟨o', ho', hsame⟩ := Tenants.object_later hi.known hd ho
      rw [ho']
      simp only [Option.map_some, Option.getD_some, hsame.target]
      exact List.Subset.refl _

theorem openKeys_later {s : Tenants.St} (e : Tenants.Ev) (i : Nat) :
    openKeys srv s i ⊆ openKeys srv (Tenants.step host srv s e) i := by
  rcases @Tenants.step_does host srv s e with heq | hd
  · rw [heq]
    exact List.Subset.refl _
  · unfold openKeys
    rcases Tenants.does_front hd with hf | ⟨ae, hf⟩
    · rw [hf]
      exact List.Subset.refl _
    · cases ho : s.front.opens[i]? with
      | none => exact List.nil_subset _
      | some o =>
        obtain ⟨o', ho', -, ht⟩ := @Tenants.opens_later srv.config s.front o i ho ae
        rw [hf, ho']
        simp only [Option.map_some, Option.getD_some, ht]
        exact List.Subset.refl _

theorem openOf_some {s : Tenants.St} {n i : Nat} {database connection : List (String × OptionValue)}
    (h : openOf s n = some (i, database, connection)) :
    ∃ r, s.requests[n]? = some r ∧ r.stage = .opening i database connection := by
  obtain ⟨r, hr, h⟩ := Option.bind_eq_some_iff.mp h
  split at h
  · rename_i hst
    cases h
    exact ⟨r, hr, hst⟩
  · cases h

/-- A session has the keys of the open that built it. -/
theorem built_keys {s : Tenants.St} (hi : Tenants.Inv srv s) {n i : Nat}
    {database connection : List (String × OptionValue)}
    {m : Admission.Move Unit} {id : String} {o : Tenants.Object} (h : openOf s n = some (i, database, connection))
    (hb : built srv s n i m = some (id, o)) :
    openKeys srv s i ⊆ sessionKeys srv (Tenants.step host srv s (.move n m)) id := by
  obtain ⟨r, hr, hst⟩ := openOf_some h
  have hobj : (Tenants.step host srv s (.move n m)).objects id = some o := by
    unfold Tenants.step Tenants.next
    simp [hr, hst, hb, Tenants.St.builds]
  obtain ⟨x, session, -, hx, hready, -, rfl⟩ := Tenants.built_some hb
  unfold openKeys sessionKeys
  rw [hobj, hx]
  rcases hi.cleared x (List.mem_of_getElem? hx) with ⟨e, he⟩ | ⟨-, hown⟩
  · rw [hready] at he
    cases he
  · simp only [Option.map_some, Option.getD_some, (hown session hready).2]
    exact List.Subset.refl _

/-- The driver answers alike, unless a configured option is read. -/
theorem answered_alike (ha : Alike srv s t) {e : Tenants.Ev} (hg : Spares srv s (.base e)) :
    b.answered t e = b.answered s e := by
  unfold Keeper.answered
  rw [ha.base]
  cases hc : connectionCall s.base e with
  | none => rfl
  | some call =>
    obtain ⟨id, op, d⟩ := call
    simp only
    cases op with
    | getOption key valueType =>
      simp only [Spares, hc] at hg
      simp only [Keeper.answers, ha.stores id key hg]
    | _ => rfl

theorem kept_alike {keys : String → List String} {stores stores' : String → Store}
    (h : ∀ id, AgreeOff (keys id) (stores id) (stores' id)) (call : Option (String × ConnectionOp × Driver))
    (id : String) :
    AgreeOff (keys id) (kept stores call id) (kept stores' call id) := by
  unfold kept
  split
  · rename_i id' key value d
    cases d.unit with
    | error e => exact h id
    | ok u => exact update_alike h ((h id').insert key value) id
  · exact h id

theorem builds_some {s : Tenants.St} {n i : Nat} {m : Admission.Move Unit} {id : String}
    (h : builds srv s n m = some (i, id)) :
    ∃ database connection o, openOf s n = some (i, database, connection) ∧ built srv s n i m = some (id, o) := by
  obtain ⟨⟨i', database, connection⟩, ho, h⟩ := Option.bind_eq_some_iff.mp h
  obtain ⟨⟨id', o⟩, hb, h⟩ := Option.bind_eq_some_iff.mp h
  cases h
  exact ⟨database, connection, o, ho, hb⟩

theorem builds_withTargets (h : Paired srv targets) (s : Tenants.St) (n : Nat) (m : Admission.Move Unit) :
    builds (withTargets srv targets) s n m = builds srv s n m := by
  unfold builds
  simp only [built_withTargets h]

theorem stored_alike (hp : Paired srv targets) (hi : Tenants.Inv srv s.base) (ha : Alike srv s t)
    (e : Tenants.Ev) (id : String) :
    AgreeOff (sessionKeys srv (Tenants.step host srv s.base (b.answered s e)) id) (stored srv s e id)
      (stored (withTargets srv targets) t e id) := by
  have hkeep := fun id => (ha.stores id).mono (@sessionKeys_later host srv s.base hi (b.answered s e) id)
  unfold stored
  rw [ha.base]
  cases e with
  | move n m =>
    simp only [builds_withTargets hp]
    cases hm : builds srv s.base n m with
    | none => exact hkeep id
    | some x =>
      obtain ⟨i, id'⟩ := x
      obtain ⟨database, connection, o, ho, hb⟩ := builds_some hm
      exact update_alike hkeep ((ha.pending i).mono (built_keys hi ho hb)) id
  | arrive | proceed | late | chore => exact kept_alike hkeep _ id

/-- The decoding of the configured values fails alike, or not at all. -/
def DecodeAlike (base64 : Base64) (srv : Service) (targets : Table String TargetConfig) : Prop :=
  ∀ name c c', srv.config.targets.lookup name = some c → targets.lookup name = some c' →
    decodeError base64 c'.connectionOptions = decodeError base64 c.connectionOptions

/-- What an open's connection is given agrees, and the open's answer is the same. -/
theorem backendOpens_alike (hp : Paired srv targets) (hd : DecodeAlike b.base64 srv targets)
    (hi : Tenants.Inv srv s.base)
    (ha : Alike srv s t) (n : Nat) (load newDatabase newConnection : Except AdbcError Unit) :
    Option.Rel (fun s' t' => Tenants.Inv srv s'.base ∧ Alike srv s' t')
      (backendOpens b host srv s n load newDatabase newConnection)
      (backendOpens b host (withTargets srv targets) t n load newDatabase newConnection) := by
  unfold backendOpens
  rw [ha.base]
  cases openOf s.base n with
  | none => exact .none
  | some x =>
    obtain ⟨i, database, connection⟩ := x
    simp only [Option.bind_eq_bind, Option.bind_some]
    cases ho : s.base.front.opens[i]? with
    | none => exact .none
    | some o =>
      simp only [Option.bind_some]
      rcases hp.lookup o.target with ⟨h1, h2⟩ | ⟨c, c', h1, h2, hv⟩
      · show Option.Rel _ _ ((targets.lookup o.target).bind _)
        rw [h1, h2]
        exact .none
      · show Option.Rel _ _ ((targets.lookup o.target).bind _)
        rw [h1, h2]
        simp only [Option.bind_some]
        cases o.backend with
        | running =>
          obtain ⟨hr, hoff⟩ := @openConnection_alike srv.unicode b.base64 b.hashing c c' hv
            (hd o.target c c' h1 h2) load newDatabase newConnection database connection
          refine .some ⟨Tenants.inv_later hi _, ?_, ?_, ?_⟩
          · simp only [withTargets_unicode, hr, step_withTargets hp]
          · intro j
            have hkeys : c.connectionOptions.map (·.key) = openKeys srv s.base i := by
              simp only [openKeys, configuredKeys, ho, h1, Option.map_some, Option.getD_some]
            exact update_alike (fun j => (ha.pending j).mono (openKeys_later _ j))
              (hoff.mono (hkeys ▸ openKeys_later _ i)) j
          · intro id
            exact (ha.stores id).mono (sessionKeys_later hi _ id)
        | notStarted | returned | panicked => exact .none

theorem step_alike (hp : Paired srv targets) (hd : DecodeAlike b.base64 srv targets) (e : Ev) (hg : Spares srv s e)
    (hi : Tenants.Inv srv s.base) (ha : Alike srv s t) :
    Tenants.Inv srv (step b host srv s e).base ∧
      Alike srv (step b host srv s e) (step b host (withTargets srv targets) t e) := by
  cases e with
  | base e =>
    have hstep : Tenants.Inv srv (Tenants.step host srv s.base (b.answered s e)) ∧
        Alike srv { s with base := Tenants.step host srv s.base (b.answered s e), stores := stored srv s e }
          { t with
            base := Tenants.step host (withTargets srv targets) t.base (b.answered t e)
            stores := stored (withTargets srv targets) t e } := by
      refine ⟨Tenants.inv_later hi _, ?_, ?_, ?_⟩
      · simp only [answered_alike ha hg, ha.base, step_withTargets hp]
      · intro i
        exact (ha.pending i).mono (openKeys_later _ i)
      · intro id
        exact stored_alike hp hi ha e id
    cases e with
    | move n m =>
      cases m with
      | backendReturns r => exact ⟨hi, ha⟩
      | _ => exact hstep
    | _ => exact hstep
  | backendOpens n load newDatabase newConnection =>
    have hrel := @backendOpens_alike b host srv targets s t hp hd hi ha n load newDatabase newConnection
    simp only [step]
    generalize backendOpens b host srv s n load newDatabase newConnection = s' at hrel ⊢
    generalize backendOpens b host (withTargets srv targets) t n load newDatabase newConnection = t' at hrel ⊢
    cases hrel with
    | none => exact ⟨hi, ha⟩
    | some h => exact h

end Runs

/-- Two configurations that differ in the values of connection options answer every run alike,
    as long as no get of a configured key reaches the driver and the values decode alike. -/
theorem confidential (b : Keeper) (host : Host) (srv : Service) (targets : Table String TargetConfig)
    (hp : Paired srv targets) (hd : DecodeAlike b.base64 srv targets) (events : List Ev)
    (hg : (machine b host srv).Admits (Spares srv) init events) :
    responses ((machine b host (withTargets srv targets)).run init events) =
      responses ((machine b host srv).run init events) := by
  have hend := @Machine.Admits.related St Ev (machine b host srv) (Spares srv) St
    (machine b host (withTargets srv targets)) (fun s t => Tenants.Inv srv s.base ∧ Alike srv s t)
    (by
      intro s t e hg h
      exact step_alike hp hd e hg h.1 h.2)
    init init events hg ⟨Tenants.init_inv, rfl, fun _ => .refl _ _, fun _ => .refl _ _⟩
  unfold responses
  rw [hend.2.base]

/-- A target with a token the clients are not given. -/
def tokenTarget (token : String) : Table String TargetConfig :=
  AList.insert "main" ⟨"driver", none, [], [⟨"token", .string token⟩], false, false, [], []⟩ ∅

/-- A service that shows the text of a value it answers with. -/
def tokenService (token : String) : Service :=
  let encode (value : Response) (_ : Nat) : Except ProtocolError RecordBatch :=
    match value with
    | .value v => .ok (flatRequest [("value", v.stringValue.getD "")]).batch
    | _ => .ok bindAck
  withTargets { Tenants.openService with codec := { Tenants.openService.codec with encodeRecord := encode } }
    (tokenTarget token)

def keeper : Keeper := ⟨.standard, Backend.inOrder, fun key _ => notFound key⟩

/-- Alice opens a session, and reads an option of its connection. -/
def reads (key : String) : List Ev :=
  [.base (.arrive Tenants.alice (.request .openConnection Tenants.openRequest)), .base (.move 0 .checkClosing),
    .base (.move 0 .reap), .base (.move 0 .reserve), .base (.move 0 (.spawn none)),
    .backendOpens 0 (.ok ()) (.ok ()) (.ok ()),
    .base (.move 0 .receive), .base (.move 0 (.workerStart none)), .base (.move 0 (.insert "c")),
    .base (.proceed 0 Tenants.soon),
    .base (.arrive Tenants.alice (.request .getConnectionOption
      (flatRequest [("session_id", "c"), ("key", key), ("value_type", "string")]))),
    .base (.proceed 1 Tenants.soon), .base (.proceed 1 Tenants.soon), .base (.proceed 1 Tenants.soon)]

theorem tokens_paired (token token' : String) : Paired (tokenService token) (tokenTarget token') := by
  intro name
  show Option.Rel DifferInValues ((tokenTarget token).lookup name) ((tokenTarget token').lookup name)
  by_cases hn : name = "main"
  · subst hn
    rw [tokenTarget, tokenTarget, AList.lookup_insert, AList.lookup_insert]
    exact .some ⟨rfl, rfl⟩
  · rw [tokenTarget, tokenTarget, AList.lookup_insert_ne hn, AList.lookup_insert_ne hn]
    exact .none

theorem tokens_decode (token token' : String) :
    DecodeAlike keeper.base64 (tokenService token) (tokenTarget token') := by
  intro name c c' hc hc'
  have hc : (tokenTarget token).lookup name = some c := hc
  by_cases hn : name = "main"
  · subst hn
    rw [tokenTarget, AList.lookup_insert] at hc hc'
    cases hc
    cases hc'
    rfl
  · rw [tokenTarget, AList.lookup_insert_ne hn] at hc
    cases hc

/-- Alice reads an option nobody configured, and is told so whatever the token is. -/
theorem confidential_readonly :
    (machine keeper Solo.smallHost (tokenService "a")).Admits (Spares (tokenService "a")) init (reads "readonly") ∧
    responses ((machine keeper Solo.smallHost (tokenService "b")).run init (reads "readonly")) =
      responses ((machine keeper Solo.smallHost (tokenService "a")).run init (reads "readonly")) := by
  have hg : (machine keeper Solo.smallHost (tokenService "a")).Admits (Spares (tokenService "a")) init
      (reads "readonly") := by
    have hkey : "readonly" ∉ ["token"] := by decide
    -- an open sorts the client's rejected keys, by well-founded recursion
    with_unfolding_all exact ⟨trivial, trivial, trivial, trivial, trivial, trivial, trivial, trivial, trivial,
      trivial, trivial, trivial, hkey, trivial, trivial⟩
  exact ⟨hg, confidential keeper Solo.smallHost (tokenService "a") (tokenTarget "b") (tokens_paired "a" "b")
    (tokens_decode "a" "b") (reads "readonly") hg⟩

/-- She reads the token itself, and is given it. -/
theorem token_read_back :
    Paired (tokenService "a") (tokenTarget "b") ∧
    responses ((machine keeper Solo.smallHost (withTargets (tokenService "a") (tokenTarget "b"))).run init
        (reads "token")) ≠
      responses ((machine keeper Solo.smallHost (tokenService "a")).run init (reads "token")) := by
  refine ⟨tokens_paired "a" "b", ?_⟩
  intro h
  have hb : responses ((machine keeper Solo.smallHost (tokenService "b")).run init (reads "token")) =
      [some (.ok (.unary bindAck)), some (.ok (.unary (flatRequest [("value", "b")]).batch))] := by
    with_unfolding_all rfl
  have ha : responses ((machine keeper Solo.smallHost (tokenService "a")).run init (reads "token")) =
      [some (.ok (.unary bindAck)), some (.ok (.unary (flatRequest [("value", "a")]).batch))] := by
    with_unfolding_all rfl
  have hvalues := hb.symm.trans (h.trans ha)
  simp [flatRequest] at hvalues

end Grainlift.Server.Confidential
