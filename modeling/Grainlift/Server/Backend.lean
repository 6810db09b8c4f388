/-
  Grainlift.Server.Backend — opening a connection through the driver manager and the
  options it is given (`DriverManagerBackend::open`, `merge_options`, backend.rs; what
  `Config::validate` checks of a target, config.rs).

  The backend merges the client's options into the configured ones. A `HashMap` yields its
  entries in any order (`Hashing`); base64 and the driver manager are parameters.

  What one open is: the driver is given the configured options with the configured values
  and, each under a key of its own, the client's permitted ones (`Given`); anything not
  permitted fails the open before a database or a connection exists. Sessions, and what is
  set on them later, are in Grainlift.Server.OptionPolicy.
-/

import Grainlift.Server.Session

namespace Grainlift.Server.Backend

open Grainlift.Lib Grainlift.Protocol

/-! ## What the configuration is checked for -/

/-- `char::is_whitespace`. -/
def isWhitespace (c : Char) : Bool :=
  let n := c.toNat
  (9 ≤ n ∧ n ≤ 13) ∨ n = 32 ∨ n = 133 ∨ n = 160 ∨ n = 5760 ∨ (8192 ≤ n ∧ n ≤ 8202) ∨ n = 8232 ∨ n = 8233 ∨ n = 8239 ∨
    n = 8287 ∨ n = 12288

/-- `s.trim().is_empty()`. -/
def isBlank (s : String) : Bool := s.toList.all isWhitespace

section Validate

variable (unicode : Unicode)

/-- `validate_options`, past the keys `seen`. -/
def validateOptions (target kind : String) (seen : List String) : List WireOption → Except String Unit
  | [] => .ok ()
  | option :: rest =>
    if isBlank option.key then
      .error ("target " ++ debugString unicode target ++ " has a blank " ++ kind ++ " option key")
    else if option.key ∈ seen then
      .error ("target " ++ debugString unicode target ++ " repeats " ++ kind ++ " option " ++
        debugString unicode option.key)
    else validateOptions target kind (option.key :: seen) rest

/-- The loop of `validate_option_policy`, past the keys `seen`. -/
def validateAllowed (target kind : String) (configured : List WireOption) (seen : List String) :
    List String → Except String Unit
  | [] => .ok ()
  | key :: rest =>
    if isBlank key then
      .error ("target " ++ debugString unicode target ++ " has a blank allowed client " ++ kind ++ " option")
    else if key ∈ seen then
      .error ("target " ++ debugString unicode target ++ " repeats allowed client " ++ kind ++ " option " ++
        debugString unicode key)
    else if key ∈ configured.map (·.key) then
      .error ("target " ++ debugString unicode target ++ " marks server-controlled " ++ kind ++ " option " ++
        debugString unicode key ++ " as client-settable")
    else validateAllowed target kind configured (key :: seen) rest

def validateOptionPolicy (target kind : String) (allowAll : Bool) (allowed : List String)
    (configured : List WireOption) :
    Except String Unit :=
  if allowAll && !allowed.isEmpty then
    .error ("target " ++ debugString unicode target ++ " enables all client " ++ kind ++
      " options and also defines an allowlist")
  else validateAllowed unicode target kind configured [] allowed

/-- What `Config::validate` checks of the target `name`. -/
def validateTarget (name : String) (target : TargetConfig) : Except String Unit := do
  if isBlank name || isBlank target.driver then .error "target names and driver names must not be blank"
  validateOptions unicode name "database" [] target.databaseOptions
  validateOptions unicode name "connection" [] target.connectionOptions
  validateOptionPolicy unicode name "database" target.allowClientDatabaseOptions target.allowedClientDatabaseOptions
    target.databaseOptions
  validateOptionPolicy unicode name "connection" target.allowClientConnectionOptions
    target.allowedClientConnectionOptions target.connectionOptions

end Validate

theorem validateOptions_nodup {unicode : Unicode} {target kind : String} {options : List WireOption}
    (h : validateOptions unicode target kind [] options = .ok ()) : (options.map (·.key)).Nodup := by
  refine (nodup_of_seen ?_ h).1
  intro seen option rest h
  unfold validateOptions at h
  split at h
  · cases h
  split at h
  · cases h
  rename_i hseen
  exact ⟨hseen, h⟩

theorem validateTarget_nodup {unicode : Unicode} {name : String} {target : TargetConfig}
    (h : validateTarget unicode name target = .ok ()) :
    (target.databaseOptions.map (·.key)).Nodup ∧ (target.connectionOptions.map (·.key)).Nodup := by
  unfold validateTarget at h
  simp only [bind, Except.bind] at h
  split at h
  · cases h
  split at h
  · cases h
  rename_i hdb
  split at h
  · cases h
  rename_i hconn
  exact ⟨validateOptions_nodup hdb, validateOptions_nodup hconn⟩

/-! ## Merging -/

/-- `ToString` of a protocol error. -/
def errorText (unicode : Unicode) : ProtocolError → String
  | .missingColumn name => "missing column " ++ debugString unicode name
  | .wrongType name expected => "column " ++ debugString unicode name ++ " has the wrong type; expected " ++ expected
  | .rowCount rows => "request must contain exactly one row, got " ++ toString rows
  | .null name => "null is not allowed in column " ++ debugString unicode name
  | .optionsJson message => "invalid options JSON: " ++ message
  | .arrow message => "invalid Arrow IPC schema: " ++ message
  | .invalidSchemaMessage => "invalid Arrow IPC schema message"
  | .invalidWire message => "invalid typed wire data: " ++ message

/-- `JsonOptionValue::into_adbc`. -/
def intoAdbc (base64 : Base64) : JsonOptionValue → Except ProtocolError OptionValue
  | .string v => .ok (.string v)
  | .bytes v =>
    match base64.decode v with
    | .ok bytes => .ok (.bytes bytes)
    | .error e => .error (.optionsJson e)
  | .int v => .ok (.int v)
  | .double bits => .ok (.double bits)

def databaseOptionPolicy (t : TargetConfig) : ClientOptionPolicy :=
  .new t.allowClientDatabaseOptions t.allowedClientDatabaseOptions t.databaseOptions

section Merge

variable (unicode : Unicode) (base64 : Base64)

/-- The configured options over what is there. -/
def insertConfigured : List WireOption → Table String OptionValue →
    Except AdbcError (Table String OptionValue)
  | [], merged => .ok merged
  | option :: rest, merged =>
    match intoAdbc base64 option.value with
    | .error e => .error (.withMessageAndStatus (errorText unicode e) .invalidArguments)
    | .ok value => insertConfigured rest (merged.insert option.key value)

/-- The first, in order, of the client's keys that are not permitted; `dedup` keeps it. -/
def firstRejected (policy : ClientOptionPolicy) (client : List (String × OptionValue)) : Option String :=
  (((client.map Prod.fst).filter fun key => !policy.permits key).mergeSort fun a b => decide (a ≤ b)).head?

def mergeOptions (client : List (String × OptionValue)) (configured : List WireOption)
    (policy : ClientOptionPolicy) (kind : String) : Except AdbcError (Table String OptionValue) :=
  match firstRejected policy client with
  | some key =>
    let reason := if policy.isProtected key then "is controlled by the proxy server"
      else "is not allowed by the target policy"
    .error (.withMessageAndStatus ("client " ++ kind ++ " option " ++ debugString unicode key ++ " " ++ reason)
      .invalidArguments)
  | none => insertConfigured unicode base64 configured (Table.insertAll ∅ client)

end Merge

/-! ## Opening -/

/-- The order a `HashMap` yields its entries in. -/
structure Hashing where
  order : Table String OptionValue → List (String × OptionValue)
  perm : ∀ t, (order t).Perm (t.entries.map fun e => (e.1, e.2))

def inOrder : Hashing := ⟨fun t => t.entries.map fun e => (e.1, e.2), fun _ => .refl _⟩

/-- What the driver manager answers during one open. -/
structure Manager where
  load : Except AdbcError Unit
  newDatabase : List (String × OptionValue) → Except AdbcError Unit
  newConnection : List (String × OptionValue) → Except AdbcError Unit

inductive ManagerCall where
  | load (driver : String) (entrypoint : Option String)
  | newDatabase (options : List (String × OptionValue))
  | newConnection (options : List (String × OptionValue))

section Open

variable (unicode : Unicode) (base64 : Base64) (hashing : Hashing) (manager : Manager) (target : TargetConfig)

/-- `DriverManagerBackend::open`: its answer, and the driver manager's calls it made. -/
def openConnection (database connection : List (String × OptionValue)) : Except AdbcError Unit × List ManagerCall :=
  let load := ManagerCall.load target.driver target.entrypoint
  match manager.load with
  | .error e => (.error e, [load])
  | .ok () =>
    match mergeOptions unicode base64 database target.databaseOptions (databaseOptionPolicy target) "database" with
    | .error e => (.error e, [load])
    | .ok database =>
      match mergeOptions unicode base64 connection target.connectionOptions target.connectionOptionPolicy "connection" with
      | .error e => (.error e, [load])
      | .ok connection =>
        let database := hashing.order database
        let connection := hashing.order connection
        match manager.newDatabase database with
        | .error e => (.error e, [load, .newDatabase database])
        | .ok () => (manager.newConnection connection, [load, .newDatabase database, .newConnection connection])

end Open

/-! ## What a merge is -/

variable {unicode : Unicode} {base64 : Base64} {client : List (String × OptionValue)} {configured : List WireOption}
  {policy : ClientOptionPolicy}
  {kind : String}

/-- Every configured bytes value is valid base64. -/
def Decodes (base64 : Base64) (configured : List WireOption) : Prop :=
  ∀ o ∈ configured, ∃ v, intoAdbc base64 o.value = .ok v

def AllPermitted (policy : ClientOptionPolicy) (client : List (String × OptionValue)) : Prop :=
  ∀ e ∈ client, policy.permits e.1 = true

theorem permits_iff {allowAll : Bool} {allowed : List String} {key : String} :
    (ClientOptionPolicy.new allowAll allowed configured).permits key = true ↔
      (∀ o ∈ configured, o.key ≠ key) ∧ (allowAll = true ∨ key ∈ allowed) := by
  simp [ClientOptionPolicy.permits, ClientOptionPolicy.isProtected, ClientOptionPolicy.new]

theorem firstRejected_none : firstRejected policy client = none ↔ AllPermitted policy client := by
  unfold firstRejected AllPermitted
  rw [List.head?_eq_none_iff, ← List.length_eq_zero_iff, List.length_mergeSort, List.length_eq_zero_iff]
  simp [List.filter_eq_nil_iff]

theorem insertConfigured_ok {t merged : Table String OptionValue}
    (h : insertConfigured unicode base64 configured t = .ok merged) :
    ∃ l : List (String × OptionValue), l.map Prod.fst = configured.map (·.key) ∧ merged = Table.insertAll t l ∧
      (∀ e ∈ l, ∃ o ∈ configured, o.key = e.1 ∧ intoAdbc base64 o.value = .ok e.2) ∧
      ∀ o ∈ configured, ∃ v, intoAdbc base64 o.value = .ok v ∧ (o.key, v) ∈ l := by
  induction configured generalizing t with
  | nil =>
    cases h
    exact ⟨[], rfl, rfl, by simp, by simp⟩
  | cons option rest ih =>
    unfold insertConfigured at h
    split at h
    · cases h
    rename_i value hv
    obtain ⟨l, hkeys, hmerged, hfrom, hto⟩ := ih h
    refine ⟨(option.key, value) :: l, by simp [hkeys], hmerged, ?_, ?_⟩
    · intro e he
      rcases List.mem_cons.mp he with rfl | he
      · exact ⟨option, List.mem_cons_self, rfl, hv⟩
      · obtain ⟨o, ho, h1, h2⟩ := hfrom e he
        exact ⟨o, List.mem_cons_of_mem _ ho, h1, h2⟩
    · intro o ho
      rcases List.mem_cons.mp ho with rfl | ho
      · exact ⟨value, hv, List.mem_cons_self⟩
      · obtain ⟨v, h1, h2⟩ := hto o ho
        exact ⟨v, h1, List.mem_cons_of_mem _ h2⟩

theorem insertConfigured_decodes (h : Decodes base64 configured) (t : Table String OptionValue) :
    ∃ merged, insertConfigured unicode base64 configured t = .ok merged := by
  induction configured generalizing t with
  | nil => exact ⟨t, rfl⟩
  | cons option rest ih =>
    obtain ⟨v, hv⟩ := h option List.mem_cons_self
    unfold insertConfigured
    rw [hv]
    exact ih (fun o ho => h o (List.mem_cons_of_mem _ ho)) _

/-- What the driver is given for `configured` and `client`. -/
structure Given (base64 : Base64) (configured : List WireOption) (policy : ClientOptionPolicy)
    (client options : List (String × OptionValue)) : Prop where
  once : (options.map Prod.fst).Nodup
  allConfigured : ∀ o ∈ configured, ∃ v, intoAdbc base64 o.value = .ok v ∧ (o.key, v) ∈ options
  source : ∀ e ∈ options, (∃ o ∈ configured, o.key = e.1 ∧ intoAdbc base64 o.value = .ok e.2) ∨
    (e ∈ client ∧ policy.permits e.1 = true)
  allClient : ∀ e ∈ client, e ∈ options

theorem order_mem (hashing : Hashing) {t : Table String OptionValue} {k : String} {v : OptionValue} :
    (k, v) ∈ hashing.order t ↔ t.lookup k = some v := by
  rw [(hashing.perm t).mem_iff, ← Table.mem_entries]
  simp only [List.mem_map, Prod.mk.injEq]
  constructor
  · intro h
    obtain ⟨e, he, rfl, rfl⟩ := h
    exact he
  · intro he
    exact ⟨⟨k, v⟩, he, rfl, rfl⟩

theorem order_nodup (hashing : Hashing) (t : Table String OptionValue) : ((hashing.order t).map Prod.fst).Nodup := by
  rw [((hashing.perm t).map Prod.fst).nodup_iff, List.map_map]
  exact t.nodupKeys

theorem mergeOptions_ok {merged : Table String OptionValue} {allowAll : Bool} {allowed : List String}
    (hashing : Hashing) (hk : (configured.map (·.key)).Nodup) (hc : (client.map Prod.fst).Nodup)
    (h : mergeOptions unicode base64 client configured (.new allowAll allowed configured) kind = .ok merged) :
    AllPermitted (.new allowAll allowed configured) client ∧
    Given base64 configured (.new allowAll allowed configured) client (hashing.order merged) := by
  unfold mergeOptions at h
  split at h
  · cases h
  rename_i hnone
  have hall := firstRejected_none.mp hnone
  obtain ⟨l, hkeys, rfl, hfrom, hto⟩ := insertConfigured_ok h
  have hl : (l.map Prod.fst).Nodup := by rw [hkeys]; exact hk
  refine ⟨hall, order_nodup hashing _, ?_, ?_, ?_⟩
  · intro o ho
    obtain ⟨v, hv, hm⟩ := hto o ho
    exact ⟨v, hv, (order_mem hashing).mpr (Table.lookup_insertAll_of_mem _ hl hm)⟩
  · intro e he
    rcases Table.lookup_insertAll_cases ((order_mem hashing).mp he) with hm | ⟨-, ht⟩
    · exact .inl (hfrom e hm)
    · rcases Table.lookup_insertAll_cases ht with hm | ⟨-, hn⟩
      · exact .inr ⟨hm, hall e hm⟩
      · cases hn
  · intro e he
    -- a permitted key is not configured, so the configured options leave it
    have hfree : e.1 ∉ l.map Prod.fst := by
      rw [hkeys]
      intro hm
      obtain ⟨o, ho, hko⟩ := List.mem_map.mp hm
      exact (permits_iff.mp (hall e he)).1 o ho hko
    exact (order_mem hashing).mpr (by
      rw [Table.lookup_insertAll_of_notMem _ hfree]
      exact Table.lookup_insertAll_of_mem _ hc he)

theorem mergeOptions_error (h : ¬ AllPermitted policy client) :
    ∃ e, mergeOptions unicode base64 client configured policy kind = .error e := by
  unfold mergeOptions
  split
  · exact ⟨_, rfl⟩
  · rename_i hnone
    exact absurd (firstRejected_none.mp hnone) h

theorem mergeOptions_decodes (h : AllPermitted policy client) (hd : Decodes base64 configured) :
    ∃ merged, mergeOptions unicode base64 client configured policy kind = .ok merged := by
  unfold mergeOptions
  rw [firstRejected_none.mpr h]
  exact insertConfigured_decodes hd _

/-! ## The options of a request -/

theorem validateOptionsFrom_nodup {options : List NamedOption} (h : validateOptionsFrom [] options = .ok ()) :
    (options.map (·.key)).Nodup := by
  refine (nodup_of_seen ?_ h).1
  intro seen option rest h
  unfold validateOptionsFrom at h
  obtain ⟨_, -, h⟩ := bind_eq_ok h
  split at h
  · cases h
  rename_i hseen
  obtain ⟨_, -, h⟩ := bind_eq_ok h
  exact ⟨hseen, h⟩

theorem mapM_keys {options : List NamedOption} {decoded : List (String × OptionValue)}
    (h : (options.mapM fun option => do return (option.key, ← option.value.intoAdbc)) = .ok decoded) :
    decoded.map Prod.fst = options.map (·.key) := by
  induction options generalizing decoded with
  | nil =>
    cases h
    rfl
  | cons option rest ih =>
    rw [List.mapM_cons] at h
    obtain ⟨e, he, h⟩ := bind_eq_ok h
    obtain ⟨es, hes, h⟩ := bind_eq_ok h
    obtain ⟨v, -, he⟩ := bind_eq_ok he
    cases he
    cases h
    simp [ih hes]

/-- A decoded request names each key once. -/
theorem namedOptions_nodup {options : List NamedOption} {decoded : List (String × OptionValue)}
    (h : namedOptionsIntoAdbc options = .ok decoded) : (decoded.map Prod.fst).Nodup := by
  unfold namedOptionsIntoAdbc at h
  obtain ⟨_, hv, h⟩ := bind_eq_ok h
  rw [mapM_keys h]
  exact validateOptionsFrom_nodup hv

/-! ## An open -/

section Opens

variable {hashing : Hashing} {manager : Manager} {target : TargetConfig}
  {database connection : List (String × OptionValue)}

theorem openConnection_refused
    (h : ¬ (AllPermitted (databaseOptionPolicy target) database ∧ AllPermitted target.connectionOptionPolicy connection)) :
    ∃ e, openConnection unicode base64 hashing manager target database connection =
      (.error e, [.load target.driver target.entrypoint]) := by
  unfold openConnection
  simp only
  split
  · exact ⟨_, rfl⟩
  split
  · exact ⟨_, rfl⟩
  rename_i _ hdb
  have hdb : AllPermitted (databaseOptionPolicy target) database := by
    by_contra hn
    obtain ⟨e, he⟩ := @mergeOptions_error unicode base64 database target.databaseOptions
      (databaseOptionPolicy target) "database" hn
    rw [he] at hdb
    cases hdb
  obtain ⟨e, he⟩ := @mergeOptions_error unicode base64 connection target.connectionOptions
    target.connectionOptionPolicy "connection" fun hc => h ⟨hdb, hc⟩
  rw [he]
  exact ⟨_, rfl⟩

theorem openConnection_given (hdk : (target.databaseOptions.map (·.key)).Nodup)
    (hck : (target.connectionOptions.map (·.key)).Nodup) (hd : (database.map Prod.fst).Nodup)
    (hc : (connection.map Prod.fst).Nodup) :
    (∀ options, .newDatabase options ∈ (openConnection unicode base64 hashing manager target database connection).2 →
      Given base64 target.databaseOptions (databaseOptionPolicy target) database options) ∧
    (∀ options, .newConnection options ∈ (openConnection unicode base64 hashing manager target database connection).2 →
      Given base64 target.connectionOptions target.connectionOptionPolicy connection options) := by
  unfold openConnection
  simp only
  split
  · simp
  split
  · simp
  rename_i _ merged hdb
  have hgdb := (mergeOptions_ok hashing hdk hd hdb).2
  split
  · simp
  rename_i _ merged' hconn
  have hgconn := (mergeOptions_ok hashing hck hc hconn).2
  split
  · simp only [List.mem_cons, reduceCtorEq, ManagerCall.newDatabase.injEq, List.not_mem_nil, or_false, false_or,
      false_implies, implies_true, and_true]
    intro options ho
    subst ho
    exact hgdb
  · simp only [List.mem_cons, reduceCtorEq, ManagerCall.newDatabase.injEq, ManagerCall.newConnection.injEq,
      List.not_mem_nil, or_false, false_or]
    refine ⟨?_, ?_⟩
    · intro options ho
      subst ho
      exact hgdb
    · intro options ho
      subst ho
      exact hgconn

theorem openConnection_opens (hd : AllPermitted (databaseOptionPolicy target) database)
    (hc : AllPermitted target.connectionOptionPolicy connection) (hdd : Decodes base64 target.databaseOptions)
    (hdc : Decodes base64 target.connectionOptions) (hload : manager.load = .ok ()) :
    ∃ options options',
      .newDatabase options ∈ (openConnection unicode base64 hashing manager target database connection).2 ∧
      (manager.newDatabase options = .ok () →
        .newConnection options' ∈ (openConnection unicode base64 hashing manager target database connection).2) := by
  obtain ⟨merged, hm⟩ := @mergeOptions_decodes unicode base64 database target.databaseOptions _ "database" hd hdd
  obtain ⟨merged', hm'⟩ := @mergeOptions_decodes unicode base64 connection target.connectionOptions _ "connection" hc hdc
  refine ⟨hashing.order merged, hashing.order merged', ?_, ?_⟩
  · unfold openConnection
    simp only [hload, hm, hm']
    split <;> simp
  · intro hdb
    unfold openConnection
    simp only [hload, hm, hm', hdb]
    simp

end Opens

end Grainlift.Server.Backend
