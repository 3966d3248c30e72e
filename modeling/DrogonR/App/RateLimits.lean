/-
# App.RateLimits — the buckets behind the rate-limit rules of an app

`dr_rate_limit` checks a rule and adds it to the app (`rateLimitSpec`); `dr_serve` hands the
rules to the native table (`Registration.registerRateLimits`); `drogonR_server_start` walks
the three route tables and builds the limiter list of each route (`buildLimitersForPath`),
creating the bucket of a global rule the first time a route needs it.

A limiter is the address of its bucket in the order of creation.  What the lists say is
proved by simulation: building them is interning the labels *rule, and route unless the rule
is global* (`Theory.Intern`, `buildLimiters_interns`).

* `buckets_as_configured_iff` — the routes share exactly the buckets the rules ask for, and
  the buckets are those of the rules, exactly when no rule that applies has a negative
  capacity, that is, none was given a capacity `as.integer` cannot hold.
* `huge_capacity_wraps` — such a rule limits nothing.
-/
import DrogonR.App.Registration
import DrogonR.R.Args
import DrogonR.Theory.Intern

namespace DrogonR.App.RateLimits

open DrogonR.R.Value DrogonR.R.Args DrogonR.App.Registration DrogonR.Theory
open DrogonR.Theory.Tables DrogonR.Theory.Intern

set_option autoImplicit false

/-! ## dr_rate_limit -/

def limiterTypes : List String := ["sliding_window", "fixed_window", "token_bucket"]

def limiterScopes : List String := ["per_route", "global"]

/-- The arguments of `dr_rate_limit` beside the app; `capacity` has no default. -/
structure LimitArgs where
  capacity : Option Sexp
  window : Sexp := .real [.fin 60] {}
  type : Sexp := .str (limiterTypes.map some) {}
  scope : Sexp := .str (limiterScopes.map some) {}
  routes : Sexp := .null

def checkCapacity : Option Sexp → Except String Real64
  | some capacity =>
      checkNumber "`capacity` must be a single integer >= 1" (fun v => !less v (.fin 1)) capacity
  | none => .error "`capacity` must be a single integer >= 1"

def checkWindow : Sexp → Except String Real64 :=
  checkNumber "`window` must be a single positive number (seconds)" (less (.fin 0))

def checkRoutes : Sexp → Except String (Option (List String))
  | .null => .ok none
  | .str xs _ =>
      if xs.any fun s => s.isNone || s = some "" then
        .error "`routes` must be NULL or a character vector of non-empty path prefixes"
      else if xs.all fun s => (charOf s).toList.head? = some '/' then .ok (some (xs.map charOf))
      else .error "every entry of `routes` must start with '/'"
  | _ => .error "`routes` must be NULL or a character vector of non-empty path prefixes"

/-- The element that `dr_rate_limit` appends to `app$rate_limits`. -/
def rateLimitSpec (args : LimitArgs) : Except String RateLimitSpec := do
  let type ← matchArg limiterTypes args.type
  let scope ← matchArg limiterScopes args.scope
  let capacity ← checkCapacity args.capacity
  let window ← checkWindow args.window
  let routes ← checkRoutes args.routes
  .ok { capacity := capacity.toRInt, window := window, type := type, scope := scope
        routes := routes }

/-- `app$rate_limits`. -/
def rateLimitColumn : Column DrogonApp RateLimitSpec where
  get app := app.rateLimits
  set app entries := { app with rateLimits := entries }
  get_set _ _ := rfl
  set_set _ _ _ := rfl
  set_get _ := rfl

def drRateLimit (app : DrogonApp) (args : LimitArgs) : Except String DrogonApp :=
  (rateLimitSpec args).map (rateLimitColumn.push app)

/-! ## Buckets -/

/-- A `drogon::RateLimiter`. -/
structure Limiter where
  type : RateLimiterType
  capacity : Nat
  window : Real64
  deriving DecidableEq, Repr

/-- `static_cast<size_t>` of an `int`. -/
def toSizeT (n : Int) : Nat := (n % 18446744073709551616).toNat

def newRateLimiter (rule : RateLimitRule) : Limiter where
  type := rule.type
  capacity := toSizeT rule.capacity
  window := rule.window

/-- An entry of `g_rateLimitRules`, with the bucket it shares once that exists. -/
structure RuleEntry where
  rule : RateLimitRule
  sharedLimiter : Option Nat

structure RouteLimiters where
  limiters : List Nat := []
  maxWindow : Real64 := .fin 0
  deriving DecidableEq, Repr

def applies (rule : RateLimitRule) (path : String) : Bool :=
  rule.routePrefixes.isEmpty ||
    rule.routePrefixes.any fun pfx => pfx.toList.isPrefixOf path.toList

/-- The limiter a matching rule contributes, the rule's entry and all buckets afterwards. -/
def limiterFor (entry : RuleEntry) (buckets : List Limiter) : Nat × RuleEntry × List Limiter :=
  if entry.rule.globalScope then
    match entry.sharedLimiter with
    | some lim => (lim, entry, buckets)
    | none =>
        (buckets.length, { entry with sharedLimiter := some buckets.length },
          buckets ++ [newRateLimiter entry.rule])
  else (buckets.length, entry, buckets ++ [newRateLimiter entry.rule])

/-- `if (rule.window > out.max_window) out.max_window = rule.window`. -/
def widen (maxWindow window : Real64) : Real64 := if less maxWindow window then window else maxWindow

def RouteLimiters.push (out : RouteLimiters) (lim : Nat) (window : Real64) : RouteLimiters where
  limiters := out.limiters ++ [lim]
  maxWindow := widen out.maxWindow window

/-- The loop of `buildLimitersForPath` from some entry on, with what it has found so far. -/
def buildLimitersFrom (path : String) :
    List RuleEntry → List Limiter → RouteLimiters → RouteLimiters × List RuleEntry × List Limiter
  | [], buckets, out => (out, [], buckets)
  | entry :: entries, buckets, out =>
      if applies entry.rule path then
        let (lim, entry', buckets') := limiterFor entry buckets
        let (out', entries', buckets'') :=
          buildLimitersFrom path entries buckets' (out.push lim entry.rule.window)
        (out', entry' :: entries', buckets'')
      else
        let (out', entries', buckets') := buildLimitersFrom path entries buckets out
        (out', entry :: entries', buckets')

def buildLimitersForPath (path : String) (entries : List RuleEntry) (buckets : List Limiter) :
    RouteLimiters × List RuleEntry × List Limiter :=
  buildLimitersFrom path entries buckets {}

/-- An install loop: each handler starts with `buildLimitersForPath(route.path)`. -/
def installRoutes :
    List String → List RuleEntry → List Limiter →
      List RouteLimiters × List RuleEntry × List Limiter
  | [], entries, buckets => ([], entries, buckets)
  | path :: paths, entries, buckets =>
      let (out, entries', buckets') := buildLimitersForPath path entries buckets
      let (outs, entries'', buckets'') := installRoutes paths entries' buckets'
      (out :: outs, entries'', buckets'')

/-- The routes in the order of the three install loops; static mounts have no limiters. -/
def installedPaths (t : Tables) : List String :=
  t.routes.map (·.path) ++ t.cppRoutes.map (·.path) ++ t.cppStreamRoutes.map (·.path)

/-- The limiter lists of all routes, and the buckets, after the server has started. -/
def install (t : Tables) : List RouteLimiters × List Limiter :=
  let result := installRoutes (installedPaths t)
    (t.rateLimitRules.map fun rule => { rule := rule, sharedLimiter := none }) []
  (result.1, result.2.2)

/-! ## What the rules ask for -/

/-- The rules that apply to a path, in order, with their places in the table. -/
def applied (rules : List RateLimitRule) (path : String) : List (RateLimitRule × Nat) :=
  rules.zipIdx.filter fun entry => applies entry.1 path

/-- Whom a bucket is for: a rule, and one route unless the rule is global. -/
def label (route : Nat) (entry : RateLimitRule × Nat) : Nat × Option Nat :=
  (entry.2, if entry.1.globalScope then none else some route)

/-- Limiter `lim` is the `k`-th of route `r`, where the `k`-th rule that applies is `rule`, at
place `i` of the table. -/
structure Limits (t : Tables) (r k : Nat) (rule : RateLimitRule) (i lim : Nat) : Prop where
  applies : ∃ path, (installedPaths t)[r]? = some path ∧
    (applied t.rateLimitRules path)[k]? = some (rule, i)
  listed : ∃ out, (install t).1[r]? = some out ∧ out.limiters[k]? = some lim

/-- The buckets are shared as configured and are those of their rules. -/
structure AsConfigured (t : Tables) : Prop where
  routes : (install t).1.length = (installedPaths t).length
  one_each : ∀ (r : Nat) (path : String) (out : RouteLimiters),
    (installedPaths t)[r]? = some path → (install t).1[r]? = some out →
    out.limiters.length = (applied t.rateLimitRules path).length
  shared : ∀ r r' k k' rule rule' i i' lim lim', Limits t r k rule i lim →
    Limits t r' k' rule' i' lim' →
    (lim = lim' ↔ i = i' ∧ (rule.globalScope = true ∨ r = r'))
  bucket : ∀ r k rule i lim, Limits t r k rule i lim → ∃ bucket,
    (install t).2[lim]? = some bucket ∧ bucket.type = rule.type ∧
      (bucket.capacity : Int) = rule.capacity ∧ bucket.window = rule.window
  longest : ∀ (r : Nat) (path : String) (out : RouteLimiters),
    (installedPaths t)[r]? = some path → (install t).1[r]? = some out →
    (∀ entry ∈ applied t.rateLimitRules path, less out.maxWindow entry.1.window = false) ∧
    (applied t.rateLimitRules path ≠ [] →
      ∃ entry ∈ applied t.rateLimitRules path, entry.1.window = out.maxWindow)

/-- The rate-limit rules of the tables are those of an app, which were added to a new one by calls
of `dr_rate_limit`. -/
def Configured (t : Tables) : Prop :=
  ∃ (calls : List LimitArgs) (app : DrogonApp) (before after : Tables),
    calls.foldlM drRateLimit {} = .ok app ∧
    registerRateLimits false app.rateLimits before = .ok after ∧
    t.rateLimitRules = after.rateLimitRules

/-! ## Building is interning -/

/-- The shared bucket of a global rule is the one its label has. -/
def Tracks (table : Table (Nat × Option Nat)) (entry : RuleEntry) (place : RateLimitRule × Nat) :
    Prop :=
  entry.rule = place.1 ∧
    (place.1.globalScope = true → entry.sharedLimiter = table.find (place.2, none))

/-- Every label has the bucket that its rule makes. -/
def Linked (rules : List RateLimitRule) (table : Table (Nat × Option Nat))
    (buckets : List Limiter) : Prop :=
  buckets.map some = table.keys.map fun label => rules[label.1]?.map newRateLimiter

theorem Linked.length {rules : List RateLimitRule} {table : Table (Nat × Option Nat)}
    {buckets : List Limiter} (linked : Linked rules table buckets) :
    buckets.length = table.keys.length := by
  have same := congrArg List.length linked
  simpa using same

theorem Linked.get {rules : List RateLimitRule} {table : Table (Nat × Option Nat)}
    {buckets : List Limiter} (linked : Linked rules table buckets) {a i : Nat} {v : Option Nat}
    {rule : RateLimitRule} (there : table.keys[a]? = some (i, v)) (rule_ : rules[i]? = some rule) :
    buckets[a]? = some (newRateLimiter rule) := by
  have same := congrArg (fun xs => xs[a]?) linked
  simp only [List.getElem?_map, there, Option.map_some, rule_] at same
  cases found : buckets[a]? with
  | none => simp [found] at same
  | some bucket =>
      rw [found] at same
      simpa using same

theorem Linked.push {rules : List RateLimitRule} {table table' : Table (Nat × Option Nat)}
    {buckets : List Limiter} {i : Nat} {v : Option Nat} {rule : RateLimitRule}
    (linked : Linked rules table buckets) (rule_ : rules[i]? = some rule)
    (grown : table'.keys = table.keys ++ [(i, v)]) :
    Linked rules table' (buckets ++ [newRateLimiter rule]) := by
  unfold Linked at linked ⊢
  rw [grown, List.map_append, List.map_append, linked]
  simp [rule_]

/-- One rule: its limiter is the number of its label. -/
theorem limiterFor_interns {rules : List RateLimitRule} {table : Table (Nat × Option Nat)}
    {buckets : List Limiter} {entry : RuleEntry} {place : RateLimitRule × Nat} {route : Nat}
    (rule_ : rules[place.2]? = some place.1) (tracks : Tracks table entry place)
    (linked : Linked rules table buckets) (fresh : (place.2, some route) ∉ table.keys) :
    (limiterFor entry buckets).1 = (table.intern (label route place)).1 ∧
      Tracks (table.intern (label route place)).2 (limiterFor entry buckets).2.1 place ∧
      Linked rules (table.intern (label route place)).2 (limiterFor entry buckets).2.2 := by
  obtain ⟨same, shared⟩ := tracks
  unfold limiterFor label
  rw [same]
  cases global : place.1.globalScope with
  | false =>
      obtain ⟨number, grown⟩ := Table.intern_of_new fresh
      refine ⟨linked.length.trans number.symm, ⟨same, fun h => ?_⟩, linked.push rule_ grown⟩
      rw [global] at h
      cases h
  | true =>
      rw [if_pos rfl, if_pos rfl]
      cases held : entry.sharedLimiter with
      | some lim =>
          have found : table.find (place.2, none) = some lim := (shared global).symm.trans held
          rw [Table.intern_of_find found]
          exact ⟨rfl, ⟨same, fun _ => held.trans found.symm⟩, linked⟩
      | none =>
          have absent : table.find (place.2, none) = none := (shared global).symm.trans held
          have new := Table.find_eq_none_iff.mp absent
          obtain ⟨number, grown⟩ := Table.intern_of_new new
          refine ⟨linked.length.trans number.symm, ⟨rfl, fun _ => ?_⟩, linked.push rule_ grown⟩
          refine (Table.find_eq_some_iff.mpr ?_).symm
          rw [grown, linked.length]
          simp

/-- The longest window of some rules, from a first value on. -/
def longestFrom (first : Real64) (places : List (RateLimitRule × Nat)) : Real64 :=
  places.foldl (fun longest place => widen longest place.1.window) first

/-- The labels a route interns for the rules at `places`. -/
def labels (path : String) (route : Nat) (places : List (RateLimitRule × Nat)) :
    List (Nat × Option Nat) :=
  (places.filter fun place => applies place.1 path).map (label route)

/-- What building the list of one route amounts to, from the rules at `places` on. -/
structure Built (rules : List RateLimitRule) (path : String) (route : Nat)
    (places : List (RateLimitRule × Nat)) (table : Table (Nat × Option Nat)) (out : RouteLimiters)
    (result : RouteLimiters × List RuleEntry × List Limiter) : Prop where
  limiters : result.1.limiters =
    out.limiters ++ (Table.internAll (labels path route places) table).1
  maxWindow : result.1.maxWindow =
    longestFrom out.maxWindow (places.filter fun place => applies place.1 path)
  tracks :
    List.Forall₂ (Tracks (Table.internAll (labels path route places) table).2) result.2.1 places
  linked : Linked rules (Table.internAll (labels path route places) table).2 result.2.2

/-- A label of other rules does not matter to what an entry tracks. -/
theorem Tracks.intern {table : Table (Nat × Option Nat)} {entry : RuleEntry}
    {place other : RateLimitRule × Nat} {route : Nat} (tracks : Tracks table entry place)
    (apart : place.2 ≠ other.2) : Tracks (table.intern (label route other)).2 entry place := by
  refine ⟨tracks.1, fun global => ?_⟩
  rw [tracks.2 global]
  refine (Table.find_intern_ne fun same => apart ?_).symm
  exact congrArg Prod.fst same

theorem Tracks.internAll {table : Table (Nat × Option Nat)} {entry : RuleEntry}
    {place : RateLimitRule × Nat} {route : Nat} {others : List (RateLimitRule × Nat)}
    (tracks : Tracks table entry place) (apart : place.2 ∉ others.map Prod.snd) :
    Tracks (Table.internAll (others.map (label route)) table).2 entry place := by
  induction others generalizing table with
  | nil => exact tracks
  | cons other others ih =>
      rw [List.map_cons, List.mem_cons, not_or] at apart
      exact ih (tracks.intern apart.1) apart.2

theorem tracks_intern {table : Table (Nat × Option Nat)} {entries : List RuleEntry}
    {places : List (RateLimitRule × Nat)} {other : RateLimitRule × Nat} {route : Nat}
    (tracks : List.Forall₂ (Tracks table) entries places) (apart : other.2 ∉ places.map Prod.snd) :
    List.Forall₂ (Tracks (table.intern (label route other)).2) entries places := by
  induction tracks with
  | nil => exact List.Forall₂.nil
  | cons head _ ih =>
      rw [List.map_cons, List.mem_cons, not_or] at apart
      exact List.Forall₂.cons (head.intern (Ne.symm apart.1)) (ih apart.2)

theorem buildLimitersFrom_pos {path : String} {entry : RuleEntry}
    (hit : applies entry.rule path = true) (entries : List RuleEntry) (buckets : List Limiter)
    (out : RouteLimiters) :
    buildLimitersFrom path (entry :: entries) buckets out =
      let rest := buildLimitersFrom path entries (limiterFor entry buckets).2.2
        (out.push (limiterFor entry buckets).1 entry.rule.window)
      (rest.1, (limiterFor entry buckets).2.1 :: rest.2.1, rest.2.2) := by
  rw [buildLimitersFrom, if_pos hit]

theorem buildLimitersFrom_neg {path : String} {entry : RuleEntry}
    (missed : ¬ applies entry.rule path = true) (entries : List RuleEntry)
    (buckets : List Limiter) (out : RouteLimiters) :
    buildLimitersFrom path (entry :: entries) buckets out =
      let rest := buildLimitersFrom path entries buckets out
      (rest.1, entry :: rest.2.1, rest.2.2) := by
  rw [buildLimitersFrom, if_neg missed]

/-- Building the limiter list of a route interns the labels of the rules that apply. -/
theorem buildLimiters_interns {rules : List RateLimitRule} (path : String) (route : Nat)
    {places : List (RateLimitRule × Nat)} {entries : List RuleEntry} {buckets : List Limiter}
    (out : RouteLimiters) {table : Table (Nat × Option Nat)}
    (nodup : (places.map Prod.snd).Nodup)
    (rule_ : ∀ place ∈ places, rules[place.2]? = some place.1)
    (tracks : List.Forall₂ (Tracks table) entries places) (linked : Linked rules table buckets)
    (fresh : ∀ place ∈ places, (place.2, some route) ∉ table.keys) :
    Built rules path route places table out (buildLimitersFrom path entries buckets out) := by
  induction places generalizing entries buckets out table with
  | nil =>
      cases tracks
      exact ⟨(List.append_nil _).symm, rfl, List.Forall₂.nil, linked⟩
  | cons place places ih =>
      cases tracks with
      | @cons entry _ entries _ head tail =>
          rw [List.map_cons, List.nodup_cons] at nodup
          rw [List.forall_mem_cons] at rule_ fresh
          have others : place.2 ∉ ((places.filter fun place => applies place.1 path).map Prod.snd) :=
            fun member => nodup.1 ((List.filter_sublist.map Prod.snd).subset member)
          by_cases hit : applies place.1 path = true
          · obtain ⟨number, tracked, linked'⟩ := limiterFor_interns rule_.1 head linked fresh.1
            have fresh' : ∀ other ∈ places,
                (other.2, some route) ∉ (table.intern (label route place)).2.keys := by
              intro other member known
              rcases Table.mem_intern known with old | same
              · exact fresh.2 other member old
              · have place_ : other.2 = place.2 := congrArg Prod.fst same
                exact nodup.1 (place_ ▸ List.mem_map_of_mem member)
            have rest := ih (out.push (limiterFor entry buckets).1 entry.rule.window) nodup.2 rule_.2
              (tracks_intern tail nodup.1) linked' fresh'
            have first : labels path route (place :: places) =
                label route place :: labels path route places := by
              simp [labels, hit]
            rw [buildLimitersFrom_pos (head.1 ▸ hit)]
            constructor
            · rw [first, rest.limiters, number]
              simp [RouteLimiters.push, Table.internAll]
            · rw [rest.maxWindow, List.filter_cons, if_pos hit, head.1]
              rfl
            · rw [first]
              exact List.Forall₂.cons (tracked.internAll others) rest.tracks
            · rw [first]
              exact rest.linked
          · have rest := ih out nodup.2 rule_.2 tail linked fresh.2
            have skipped : labels path route (place :: places) = labels path route places := by
              simp [labels, hit]
            rw [buildLimitersFrom_neg (head.1 ▸ hit)]
            constructor
            · rw [skipped, rest.limiters]
            · rw [rest.maxWindow, List.filter_cons, if_neg hit]
            · rw [skipped]
              exact List.Forall₂.cons (head.internAll others) rest.tracks
            · rw [skipped]
              exact rest.linked

/-! ## The whole installation -/

/-- The limiter list of a route is the list of the numbers of its labels. -/
def Serves (rules : List RateLimitRule) (table : Table (Nat × Option Nat)) (out : RouteLimiters)
    (route : String × Nat) : Prop :=
  List.Forall₂ (fun lim label => table.keys[lim]? = some label) out.limiters
      ((applied rules route.1).map (label route.2)) ∧
    out.maxWindow = longestFrom (.fin 0) (applied rules route.1)

theorem Serves.extend {rules : List RateLimitRule} {table table' : Table (Nat × Option Nat)}
    {out : RouteLimiters} {route : String × Nat} (serves : Serves rules table out route)
    (extends_ : table.Extends table') : Serves rules table' out route :=
  ⟨serves.1.imp fun a k => extends_ a k, serves.2⟩

theorem getElem?_of_mem_zipIdx {rules : List RateLimitRule} {place : RateLimitRule × Nat}
    (member : place ∈ rules.zipIdx) : rules[place.2]? = some place.1 :=
  List.mem_zipIdx_iff_getElem?.mp member

/-- Installing routes, the first of them as number `n`, extends the table by their labels. -/
theorem installRoutes_interns (rules : List RateLimitRule) (paths : List String) (n : Nat)
    {entries : List RuleEntry} {buckets : List Limiter} {table : Table (Nat × Option Nat)}
    (tracks : List.Forall₂ (Tracks table) entries rules.zipIdx)
    (linked : Linked rules table buckets)
    (earlier : ∀ i route, (i, some route) ∈ table.keys → route < n) :
    ∃ table', table.Extends table' ∧
      Linked rules table' (installRoutes paths entries buckets).2.2 ∧
      List.Forall₂ (Serves rules table') (installRoutes paths entries buckets).1
        (paths.zipIdx n) := by
  induction paths generalizing n entries buckets table with
  | nil => exact ⟨table, fun _ _ => id, linked, List.Forall₂.nil⟩
  | cons path paths ih =>
      have built : Built rules path n rules.zipIdx table {}
          (buildLimitersForPath path entries buckets) := by
        refine buildLimiters_interns path n {} ?_ (fun _ => getElem?_of_mem_zipIdx) tracks linked ?_
        · rw [List.zipIdx_map_snd]
          exact List.nodup_range'
        · intro place _ known
          exact absurd (earlier _ _ known) (Nat.lt_irrefl n)
      have earlier' : ∀ i route, (i, some route) ∈
          (Table.internAll (labels path n rules.zipIdx) table).2.keys → route < n + 1 := by
        intro i route known
        rcases Table.mem_internAll known with old | new
        · exact Nat.lt_succ_of_lt (earlier i route old)
        · obtain ⟨place, -, same⟩ := List.mem_map.mp new
          have visitor := congrArg Prod.snd same
          unfold label at visitor
          split at visitor
          · cases visitor
          · cases visitor
            exact Nat.lt_succ_self n
      obtain ⟨table', later, linked', rest⟩ := ih (n + 1) built.tracks built.linked earlier'
      refine ⟨table', fun a k there => later a k (Table.internAll_extends _ _ a k there),
        linked', ?_⟩
      refine List.Forall₂.cons (Serves.extend ⟨?_, built.maxWindow⟩ later) rest
      have numbers : (buildLimitersForPath path entries buckets).1.limiters =
          (Table.internAll (labels path n rules.zipIdx) table).1 := built.limiters
      show List.Forall₂ _ (buildLimitersForPath path entries buckets).1.limiters _
      rw [numbers]
      exact Table.internAll_get (labels path n rules.zipIdx) table

/-- The labels of all limiters after the server has started. -/
theorem install_interns (t : Tables) :
    ∃ table, Linked t.rateLimitRules table (install t).2 ∧
      List.Forall₂ (Serves t.rateLimitRules table) (install t).1 (installedPaths t).zipIdx := by
  have tracks : ∀ (rules : List RateLimitRule) (n : Nat), List.Forall₂ (Tracks Table.empty)
      (rules.map fun rule => { rule := rule, sharedLimiter := none }) (rules.zipIdx n) := by
    intro rules
    induction rules with
    | nil => exact fun _ => List.Forall₂.nil
    | cons rule rules ih => exact fun n => List.Forall₂.cons ⟨rfl, fun _ => rfl⟩ (ih (n + 1))
  have nothing : Linked t.rateLimitRules Table.empty [] := rfl
  obtain ⟨table, -, linked, serves⟩ := installRoutes_interns t.rateLimitRules (installedPaths t) 0
    (tracks t.rateLimitRules 0) nothing fun _ _ known => absurd known List.not_mem_nil
  exact ⟨table, linked, serves⟩

/-! ## The longest window -/

/-- No window is longer, and the value is that of a rule or the one it started from. -/
theorem longestFrom_spec (places : List (RateLimitRule × Nat)) (first : Real64)
    (number : isNa first = false)
    (numbers : ∀ place ∈ places, isNa place.1.window = false) :
    (∀ place ∈ places, less (longestFrom first places) place.1.window = false) ∧
      less (longestFrom first places) first = false ∧
      (longestFrom first places = first ∨
        ∃ place ∈ places, place.1.window = longestFrom first places) := by
  induction places generalizing first with
  | nil => exact ⟨by simp, less_irrefl first, Or.inl rfl⟩
  | cons place places ih =>
      rw [List.forall_mem_cons] at numbers
      have unroll : longestFrom first (place :: places) =
          longestFrom (widen first place.1.window) places := rfl
      rw [unroll, List.forall_mem_cons]
      unfold widen
      cases longer : less first place.1.window with
      | true =>
          rw [if_pos rfl]
          obtain ⟨all, start, source⟩ := ih place.1.window numbers.1 numbers.2
          refine ⟨⟨start, all⟩, ?_, Or.inr ?_⟩
          · rw [← Bool.not_eq_true] at start ⊢
            exact fun below => start (less_trans below longer)
          · rcases source with same | ⟨other, member, same⟩
            · exact ⟨place, List.mem_cons_self, same.symm⟩
            · exact ⟨other, List.mem_cons_of_mem _ member, same⟩
      | false =>
          rw [if_neg Bool.false_ne_true]
          obtain ⟨all, start, source⟩ := ih first number numbers.2
          refine ⟨⟨?_, all⟩, start, ?_⟩
          · rw [← Bool.not_eq_true] at start ⊢
            exact fun below => start (less_of_less_of_not_less number below longer)
          · refine source.imp_right ?_
            rintro ⟨other, member, same⟩
            exact ⟨other, List.mem_cons_of_mem _ member, same⟩

/-! ## Rules of an app -/

theorem rateLimitSpec_window {args : LimitArgs} {spec : RateLimitSpec}
    (accepted : rateLimitSpec args = .ok spec) : less (.fin 0) spec.window = true := by
  simp only [rateLimitSpec, bind_ok_iff] at accepted
  obtain ⟨_, -, _, -, _, -, window, checked, _, -, made⟩ := accepted
  cases made
  exact (checkNumber_ok checked).2.2

theorem rateLimitSpec_capacity {args : LimitArgs} {spec : RateLimitSpec}
    (accepted : rateLimitSpec args = .ok spec) : spec.capacity.getD intMin ≤ intMax := by
  simp only [rateLimitSpec, bind_ok_iff] at accepted
  obtain ⟨_, -, _, -, capacity, -, _, -, _, -, made⟩ := accepted
  cases made
  show capacity.toRInt.getD intMin ≤ intMax
  cases capacity with
  | fin q =>
      simp only [Real64.toRInt]
      split
      · rename_i inside
        exact inside.2
      · decide
  | nan | na | posInf | negInf => decide

/-- What `dr_rate_limit` accepts, registration accepts. -/
theorem rateLimitRule_accepts {args : LimitArgs} {spec : RateLimitSpec}
    (accepted : rateLimitSpec args = .ok spec) (i : Nat) :
    ∃ rule, rateLimitRule (spec, i) = .ok rule := by
  simp only [rateLimitSpec, bind_ok_iff] at accepted
  obtain ⟨type, typed, scope, ranged, _, -, _, -, _, -, made⟩ := accepted
  cases made
  have kind : ∃ kind, limiterType i type = .ok kind := by
    have word := matchArg_mem typed
    simp only [List.mem_cons, List.not_mem_nil, or_false] at word
    rcases word with rfl | rfl | rfl <;> exact ⟨_, rfl⟩
  have reach : ∃ global, globalScope i scope = .ok global := by
    have word := matchArg_mem ranged
    simp only [List.mem_cons, List.not_mem_nil, or_false] at word
    rcases word with rfl | rfl <;> exact ⟨_, rfl⟩
  obtain ⟨kind, typed⟩ := kind
  obtain ⟨global, ranged⟩ := reach
  simp only [rateLimitRule, typed, ranged]
  exact ⟨_, rfl⟩

/-- What calls of `dr_rate_limit` leave in an app, if none of them fails. -/
theorem drRateLimit_calls {calls : List LimitArgs} {app made : DrogonApp}
    (called : calls.foldlM drRateLimit app = .ok made) :
    ∃ specs, Accepted rateLimitSpec calls specs ∧
      made = { app with rateLimits := app.rateLimits ++ specs } :=
  (fill_ok_iff rateLimitColumn rateLimitSpec calls app made).mp called

theorem rateLimitRule_fields {spec : RateLimitSpec × Nat} {rule : RateLimitRule}
    (accepted : rateLimitRule spec = .ok rule) :
    rule.window = spec.1.window ∧ rule.capacity = spec.1.capacity.getD intMin := by
  simp only [rateLimitRule, bind_ok_iff] at accepted
  obtain ⟨_, -, _, -, made⟩ := accepted
  cases made
  exact ⟨rfl, rfl⟩

/-- Rules that come from `dr_rate_limit` have a positive window and a capacity that an `int`
holds. -/
theorem configured_rule {t : Tables} (configured : Configured t) :
    ∀ rule ∈ t.rateLimitRules, less (.fin 0) rule.window = true ∧ rule.capacity ≤ intMax := by
  obtain ⟨calls, app, before, after, called, registered, same⟩ := configured
  obtain ⟨specs, accepted, rfl⟩ := drRateLimit_calls called
  intro rule member
  simp only [registerRateLimits, bind_ok_iff, fill_ok_iff] at registered
  obtain ⟨-, -, rules, entered, rfl⟩ := registered
  rw [same] at member
  obtain ⟨spec, there, entry⟩ := entered.source member
  obtain ⟨args, -, checked⟩ := accepted.source (List.fst_mem_of_mem_zipIdx there)
  rw [(rateLimitRule_fields entry).1, (rateLimitRule_fields entry).2]
  exact ⟨rateLimitSpec_window checked, rateLimitSpec_capacity checked⟩

/-! ## The result -/

theorem toSizeT_eq_iff {n : Int} (high : n ≤ intMax) : (toSizeT n : Int) = n ↔ 0 ≤ n := by
  unfold toSizeT
  unfold intMax at high
  omega

section Installed

variable {t : Tables} {table : Table (Nat × Option Nat)}

theorem applied_get {rules : List RateLimitRule} {path : String} {k i : Nat} {rule : RateLimitRule}
    (there : (applied rules path)[k]? = some (rule, i)) :
    rules[i]? = some rule ∧ applies rule path = true := by
  obtain ⟨member, hit⟩ := List.mem_filter.mp (List.mem_of_getElem? there)
  exact ⟨getElem?_of_mem_zipIdx member, hit⟩

theorem serves_at (serves : List.Forall₂ (Serves t.rateLimitRules table) (install t).1
      (installedPaths t).zipIdx) {r : Nat} {path : String} {out : RouteLimiters}
    (route : (installedPaths t)[r]? = some path) (listed : (install t).1[r]? = some out) :
    Serves t.rateLimitRules table out (path, r) := by
  have numbered : (installedPaths t).zipIdx[r]? = some (path, r) := by
    rw [List.getElem?_zipIdx, route]
    simp
  exact forall₂_getElem? serves listed numbered

/-- A limiter is the number of its label. -/
theorem limits_label (serves : List.Forall₂ (Serves t.rateLimitRules table) (install t).1
      (installedPaths t).zipIdx) {r k i lim : Nat} {rule : RateLimitRule}
    (limits : Limits t r k rule i lim) : table.keys[lim]? = some (label r (rule, i)) := by
  obtain ⟨⟨path, route, hit⟩, ⟨out, listed, there⟩⟩ := limits
  have served := (serves_at serves route listed).1
  have labelled : ((applied t.rateLimitRules path).map (label r))[k]? =
      some (label r (rule, i)) := by
    rw [List.getElem?_map, hit]
    rfl
  exact forall₂_getElem? served there labelled

theorem label_inj {r r' i i' : Nat} {rule rule' : RateLimitRule} (same : i = i' → rule = rule') :
    label r (rule, i) = label r' (rule', i') ↔ i = i' ∧ (rule.globalScope = true ∨ r = r') := by
  unfold label
  rw [Prod.mk.injEq]
  refine and_congr_right fun place => ?_
  rw [← same place]
  cases rule.globalScope <;> simp

/-- Everything but the capacity is as configured for every app. -/
theorem limits_shared (serves : List.Forall₂ (Serves t.rateLimitRules table) (install t).1
      (installedPaths t).zipIdx) {r r' k k' i i' lim lim' : Nat} {rule rule' : RateLimitRule}
    (limits : Limits t r k rule i lim) (limits' : Limits t r' k' rule' i' lim') :
    lim = lim' ↔ i = i' ∧ (rule.globalScope = true ∨ r = r') := by
  have first := limits_label serves limits
  have second := limits_label serves limits'
  obtain ⟨path, -, hit⟩ := limits.applies
  obtain ⟨path', -, hit'⟩ := limits'.applies
  have same : i = i' → rule = rule' := by
    rintro rfl
    exact Option.some.inj ((applied_get hit).1.symm.trans (applied_get hit').1)
  rw [← label_inj same]
  constructor
  · rintro rfl
    exact Option.some.inj (first.symm.trans second)
  · intro labels_
    rw [labels_] at first
    exact Table.get?_inj first second

/-- Every rule that applies to a route has a limiter there. -/
theorem exists_limits (serves : List.Forall₂ (Serves t.rateLimitRules table) (install t).1
      (installedPaths t).zipIdx) {path : String} {rule : RateLimitRule}
    (route : path ∈ installedPaths t) (member : rule ∈ t.rateLimitRules)
    (hit : applies rule path = true) : ∃ r k i lim, Limits t r k rule i lim := by
  obtain ⟨r, at_r⟩ := List.mem_iff_getElem?.mp route
  obtain ⟨i, at_i⟩ := List.mem_iff_getElem?.mp member
  have entry : (rule, i) ∈ applied t.rateLimitRules path :=
    List.mem_filter.mpr ⟨List.mem_zipIdx_iff_getElem?.mpr at_i, hit⟩
  obtain ⟨k, at_k⟩ := List.mem_iff_getElem?.mp entry
  have inside : r < (install t).1.length := by
    rw [serves.length_eq, List.length_zipIdx]
    exact (List.getElem?_eq_some_iff.mp at_r).1
  have listed := List.getElem?_eq_getElem inside
  have within : k < ((install t).1[r]).limiters.length := by
    rw [(serves_at serves at_r listed).1.length_eq, List.length_map]
    exact (List.getElem?_eq_some_iff.mp at_k).1
  exact ⟨r, k, i, _, ⟨path, at_r, at_k⟩, ⟨_, listed, List.getElem?_eq_getElem within⟩⟩

theorem serves_longest {rules : List RateLimitRule} {out : RouteLimiters} {path : String}
    {r : Nat}
    (positive : ∀ rule ∈ rules, less (.fin 0) rule.window = true)
    (serves : Serves rules table out (path, r)) :
    (∀ entry ∈ applied rules path, less out.maxWindow entry.1.window = false) ∧
      (applied rules path ≠ [] →
        ∃ entry ∈ applied rules path, entry.1.window = out.maxWindow) := by
  have windows : ∀ entry ∈ applied rules path, less (.fin 0) entry.1.window = true := by
    intro entry member
    exact positive entry.1 (List.fst_mem_of_mem_zipIdx (List.mem_filter.mp member).1)
  obtain ⟨all, -, source⟩ := longestFrom_spec (applied rules path) (.fin 0) rfl
    fun entry member => isNa_of_less (windows entry member)
  rw [serves.2]
  refine ⟨all, fun some_ => source.resolve_left fun zero => ?_⟩
  -- a rule that applies has a window above the initial 0
  obtain ⟨entry, member⟩ := List.exists_mem_of_ne_nil _ some_
  have above := windows entry member
  rw [← zero, all entry member] at above
  cases above

end Installed

/-- The buckets are shared exactly as configured, and every route's list and window are right,
exactly when no rule that applies to a route has lost its capacity on the way. -/
theorem buckets_as_configured_iff (t : Tables) (configured : Configured t) :
    AsConfigured t ↔ ∀ path ∈ installedPaths t, ∀ rule ∈ t.rateLimitRules,
      applies rule path = true → 0 ≤ rule.capacity := by
  obtain ⟨table, linked, serves⟩ := install_interns t
  have routes : (install t).1.length = (installedPaths t).length := by
    rw [serves.length_eq, List.length_zipIdx]
  have bucket : ∀ r k rule i lim, Limits t r k rule i lim →
      (install t).2[lim]? = some (newRateLimiter rule) := by
    intro r k rule i lim limits
    obtain ⟨path, -, hit⟩ := limits.applies
    exact linked.get (limits_label serves limits) (applied_get hit).1
  constructor
  · intro asConfigured path route rule member hit
    obtain ⟨r, k, i, lim, limits⟩ := exists_limits serves route member hit
    obtain ⟨_, _, -, capacity, -⟩ := asConfigured.bucket r k rule i lim limits
    omega
  · intro whole
    refine ⟨routes, ?_, ?_, ?_, ?_⟩
    · intro r path out route listed
      have served := (serves_at serves route listed).1
      rw [served.length_eq, List.length_map]
    · intro r r' k k' rule rule' i i' lim lim' limits limits'
      exact limits_shared serves limits limits'
    · intro r k rule i lim limits
      refine ⟨_, bucket r k rule i lim limits, rfl, ?_, rfl⟩
      obtain ⟨path, route, hit⟩ := limits.applies
      obtain ⟨place, hit⟩ := applied_get hit
      have member := List.mem_of_getElem? place
      have positive := whole path (List.mem_of_getElem? route) rule member hit
      exact (toSizeT_eq_iff (configured_rule configured rule member).2).mpr positive
    · intro r path out route listed
      exact serves_longest (fun rule member => (configured_rule configured rule member).1)
        (serves_at serves route listed)

/-- `dr_rate_limit(capacity = …, scope = "global")`. -/
def globalLimit (capacity : Rat) : LimitArgs where
  capacity := some (.real [.fin capacity] {})
  scope := .mkString "global"

/-- `dr_rate_limit(capacity = 5, window = 10, scope = "per_route", routes = "/b")`. -/
def perRouteLimit : LimitArgs where
  capacity := some (.real [.fin 5] {})
  window := .real [.fin 10] {}
  scope := .mkString "per_route"
  routes := .mkString "/b"

/-- An app with two routes, a global rule and a per-route rule, as served. -/
def twoRoutes : Tables where
  routes :=
    [{ method := "GET", path := "/a", regex := "/a", paramNames := [], handler := .clos 0 },
     { method := "GET", path := "/b", regex := "/b", paramNames := [], handler := .clos 1 }]
  rateLimitRules :=
    [{ capacity := 100, window := .fin 60, type := .slidingWindow, globalScope := true
       routePrefixes := [] },
     { capacity := 5, window := .fin 10, type := .slidingWindow, globalScope := false
       routePrefixes := ["/b"] }]

/-- Both routes draw from the global bucket, and the second one from its own as well. -/
theorem buckets_as_configured_iff_twoRoutes :
    Configured twoRoutes ∧
      (install twoRoutes).1 =
        [{ limiters := [0], maxWindow := .fin 60 }, { limiters := [0, 1], maxWindow := .fin 60 }] ∧
      AsConfigured twoRoutes := by
  have configured : Configured twoRoutes :=
    ⟨[globalLimit 100, perRouteLimit], _, {}, _, rfl, rfl, rfl⟩
  refine ⟨configured, by decide, (buckets_as_configured_iff twoRoutes configured).mpr ?_⟩
  intro path _ rule member _
  rcases List.mem_cons.mp member with rfl | member
  · decide
  · rw [List.mem_singleton.mp member]
    decide

/-- An app with one route and `dr_rate_limit(capacity = …, scope = "global")`, as served. -/
def oneRoute (capacity : Int) : Tables where
  routes :=
    [{ method := "GET", path := "/a", regex := "/a", paramNames := [], handler := .clos 0 }]
  rateLimitRules :=
    [{ capacity := capacity, window := .fin 60, type := .slidingWindow, globalScope := true
       routePrefixes := [] }]

/-- `dr_rate_limit(capacity = 3e9)` is accepted, and makes a bucket of 2⁶⁴ - 2³¹ requests. -/
theorem huge_capacity_wraps :
    Configured (oneRoute intMin) ∧
      (rateLimitSpec (globalLimit 3000000000)).map RateLimitSpec.capacity = .ok none ∧
      install (oneRoute intMin) =
        ([{ limiters := [0], maxWindow := .fin 60 }],
          [{ type := .slidingWindow, capacity := 18446744071562067968, window := .fin 60 }]) ∧
      ¬ AsConfigured (oneRoute intMin) := by
  have configured : Configured (oneRoute intMin) :=
    ⟨[globalLimit 3000000000], _, {}, _, rfl, rfl, rfl⟩
  refine ⟨configured, rfl, by decide, fun asConfigured => ?_⟩
  obtain ⟨bucket, -, -, capacity, -⟩ := asConfigured.bucket 0 0
    { capacity := intMin, window := .fin 60, type := .slidingWindow, globalScope := true
      routePrefixes := [] } 0 0
    ⟨⟨"/a", rfl, rfl⟩, ⟨{ limiters := [0], maxWindow := .fin 60 }, by decide, rfl⟩⟩
  have held : (0 : Int) ≤ intMin := by
    rw [← show (bucket.capacity : Int) = intMin from capacity]
    exact Int.natCast_nonneg _
  exact absurd held (by decide)

end DrogonR.App.RateLimits
