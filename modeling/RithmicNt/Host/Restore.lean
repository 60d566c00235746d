import RithmicNt.Host.Intents

/-! Restore plans: which joins a recovery re-issues, and one pass over a plan. -/

namespace RithmicNt.Host

open RithmicNt.Lib

inductive Stream
  | ticker
  | history
  | pnl
  | order
  deriving DecidableEq, Repr

/-- The plant that carries an intent. -/
def Intent.stream : Intent → Stream
  | .md (.ticker _) | .md (.book _) => .ticker
  | .md (.timeBars _) => .history
  | .pnl => .pnl
  | .order | .brackets => .order

inductive Recovery
  | plant (stream : Stream)
  | login
  deriving DecidableEq, Repr

structure RestorePlan where
  ticker : List SubKey := []
  book : List SubKey := []
  timeBars : List TimeBarIntent := []
  pnl : Bool := false
  order : Bool := false
  brackets : Bool := false
  deriving DecidableEq, Repr

def IntentStore.restorePlan (s : IntentStore) : RestorePlan where
  ticker := s.ticker.keys
  book := s.book.keys
  timeBars := s.timeBars.keys
  pnl := 0 < s.pnl
  order := 0 < s.order
  brackets := 0 < s.brackets

namespace RestorePlan

def mdIntents (p : RestorePlan) : List MdIntent :=
  p.ticker.map .ticker ++ p.book.map .book ++ p.timeBars.map .timeBars

def hasAccount (p : RestorePlan) : Bool := p.pnl || p.order || p.brackets

/-- The plan asks for the join of an intent. -/
def Wants (p : RestorePlan) : Intent → Prop
  | .md i => i ∈ p.mdIntents
  | .pnl => p.pnl
  | .order => p.order
  | .brackets => p.brackets

/-- The part of a plan that another plan asks for as well. -/
def retain (p held : RestorePlan) : RestorePlan where
  ticker := p.ticker.filter (· ∈ held.ticker)
  book := p.book.filter (· ∈ held.book)
  timeBars := p.timeBars.filter (· ∈ held.timeBars)
  pnl := p.pnl && held.pnl
  order := p.order && held.order
  brackets := p.brackets && held.brackets

theorem mem_mdIntents {p : RestorePlan} {i : MdIntent} : i ∈ p.mdIntents ↔
    match i with
    | .ticker key => key ∈ p.ticker
    | .book key => key ∈ p.book
    | .timeBars t => t ∈ p.timeBars := by
  cases i <;> simp [mdIntents]

theorem wants_retain (p held : RestorePlan) (i : Intent) :
    (p.retain held).Wants i ↔ p.Wants i ∧ held.Wants i := by
  rcases i with (_ | _ | _) | _ | _ | _ <;> simp [Wants, mem_mdIntents, retain]

/-- The market-data intents of a plan, each once. -/
def Distinct (p : RestorePlan) : Prop := p.mdIntents.Nodup

theorem Distinct.retain {p : RestorePlan} (h : p.Distinct) (held : RestorePlan) :
    (p.retain held).Distinct := by
  refine h.sublist ?_
  unfold mdIntents RestorePlan.retain
  exact ((List.filter_sublist.map _).append (List.filter_sublist.map _)).append
    (List.filter_sublist.map _)

end RestorePlan

theorem wants_restorePlan (s : IntentStore) (i : Intent) :
    s.restorePlan.Wants i ↔ 0 < s.count i := by
  rcases i with (_ | _ | _) | _ | _ | _ <;>
    simp [RestorePlan.Wants, RestorePlan.mem_mdIntents, IntentStore.restorePlan,
      IntentStore.count, Tally.mem_keys_iff]

theorem distinct_restorePlan (s : IntentStore) : s.restorePlan.Distinct := by
  unfold RestorePlan.Distinct RestorePlan.mdIntents IntentStore.restorePlan
  refine List.nodup_append.mpr ⟨List.nodup_append.mpr ⟨?_, ?_, ?_⟩, ?_, ?_⟩
  · exact s.ticker.nodup_keys.map fun x y hxy => by cases hxy; rfl
  · exact s.book.nodup_keys.map fun x y hxy => by cases hxy; rfl
  · simp
  · exact s.timeBars.nodup_keys.map fun x y hxy => by cases hxy; rfl
  · intro i hi j hj
    obtain ⟨t, -, rfl⟩ := List.mem_map.mp hj
    rcases List.mem_append.mp hi with hi | hi <;> obtain ⟨key, -, rfl⟩ := List.mem_map.mp hi <;>
      simp

/-- How the venue answers the calls of one rebuild. -/
structure RebuildAnswers where
  resetTicker : Bool := true
  resetHistory : Bool := true
  disconnectPnl : Bool := true
  ensurePnl : Bool := true
  disconnectOrder : Bool := true
  ensureOrder : Bool := true
  connect : Bool := true
  deriving DecidableEq, Repr

namespace Recovery

def carries : Recovery → Stream → Bool
  | .login, _ => true
  | .plant s, t => s == t

def plan (r : Recovery) (p : RestorePlan) : RestorePlan where
  ticker := if r.carries .ticker then p.ticker else []
  book := if r.carries .ticker then p.book else []
  timeBars := if r.carries .history then p.timeBars else []
  pnl := p.pnl && r.carries .pnl
  order := p.order && r.carries .order
  brackets := p.brackets && r.carries .order

/-- Whether the rebuild of the scope succeeds. -/
def rebuild (a : RebuildAnswers) : Recovery → Bool
  | .plant .ticker => a.resetTicker
  | .plant .history => a.resetHistory
  | .plant .pnl => a.disconnectPnl && a.ensurePnl
  | .plant .order => a.disconnectOrder && a.ensureOrder
  | .login => a.connect

theorem wants_plan (r : Recovery) (p : RestorePlan) (i : Intent) :
    (r.plan p).Wants i ↔ p.Wants i ∧ r.carries i.stream = true := by
  rcases i with (_ | _ | _) | _ | _ | _ <;>
    simp only [RestorePlan.Wants, RestorePlan.mem_mdIntents, plan, Intent.stream,
      Bool.and_eq_true]
  all_goals split <;> simp_all

theorem distinct_plan {p : RestorePlan} (h : p.Distinct) (r : Recovery) : (r.plan p).Distinct := by
  have hsub : ∀ (b : Bool) {α : Type} (l : List α), (if b then l else []).Sublist l := by
    intro b α l
    cases b
    · exact List.nil_sublist l
    · exact List.Sublist.refl l
  refine List.Nodup.sublist ?_ h
  unfold RestorePlan.mdIntents plan
  exact (((hsub _ _).map _).append ((hsub _ _).map _)).append ((hsub _ _).map _)

end Recovery

/-- How the venue answers the joins of one pass. -/
structure PassAnswers where
  join : MdIntent → Bool := fun _ => true
  ensurePnl : Bool := true
  subscribePnl : Bool := true
  subscribeOrder : Bool := true
  subscribeBrackets : Bool := true

/-- A join that a pass issued, and whether it succeeded. -/
abbrev Join := Intent × Bool

namespace PassAnswers

variable (a : PassAnswers)

def pnl : Bool := a.ensurePnl && a.subscribePnl

/-- The joins of a pass, in order: no brackets behind a failed order stream. -/
def joins (p : RestorePlan) : List Join :=
  p.mdIntents.map (fun i => (.md i, a.join i)) ++
    (if p.pnl then [(.pnl, a.pnl)] else []) ++
    (if p.order then [(.order, a.subscribeOrder)] else []) ++
    (if p.brackets && !(p.order && !a.subscribeOrder) then [(.brackets, a.subscribeBrackets)]
      else [])

/-- The plan of the joins that failed. -/
def failed (p : RestorePlan) : RestorePlan where
  ticker := p.ticker.filter fun key => !a.join (.ticker key)
  book := p.book.filter fun key => !a.join (.book key)
  timeBars := p.timeBars.filter fun t => !a.join (.timeBars t)
  pnl := p.pnl && !a.pnl
  order := p.order && !a.subscribeOrder
  brackets := p.brackets && !(!(p.order && !a.subscribeOrder) && a.subscribeBrackets)

theorem mem_joins (p : RestorePlan) (i : Intent) (b : Bool) :
    (i, b) ∈ a.joins p ↔
      match i with
      | .md i => i ∈ p.mdIntents ∧ b = a.join i
      | .pnl => p.pnl = true ∧ b = a.pnl
      | .order => p.order = true ∧ b = a.subscribeOrder
      | .brackets => p.brackets = true ∧ (p.order = true → a.subscribeOrder = true) ∧
          b = a.subscribeBrackets := by
  unfold joins
  rcases i with i | _ | _ | _ <;>
    by_cases hp : p.pnl = true <;> by_cases ho : p.order = true <;>
    by_cases hb : p.brackets = true <;> by_cases hs : a.subscribeOrder = true <;>
    simp [hp, ho, hb, hs, eq_comm]

theorem wants_of_mem_joins {p : RestorePlan} {i : Intent} {b : Bool} (h : (i, b) ∈ a.joins p) :
    p.Wants i := by
  rw [mem_joins] at h
  cases i <;> exact h.1

/-- What is left to join is what the pass did not join. -/
theorem wants_failed (p : RestorePlan) (i : Intent) :
    (a.failed p).Wants i ↔ p.Wants i ∧ (i, true) ∉ a.joins p := by
  rw [mem_joins]
  rcases i with (_ | _ | _) | _ | _ | _
  case md.ticker | md.book | md.timeBars =>
    simp only [RestorePlan.Wants, RestorePlan.mem_mdIntents, failed, List.mem_filter]
    grind
  case pnl => simp only [RestorePlan.Wants, failed]; grind
  case order => simp only [RestorePlan.Wants, failed]; grind
  case brackets => simp only [RestorePlan.Wants, failed]; grind

theorem distinct_failed {p : RestorePlan} (h : p.Distinct) : (a.failed p).Distinct := by
  refine List.Nodup.sublist ?_ h
  unfold RestorePlan.mdIntents failed
  exact ((List.filter_sublist.map _).append (List.filter_sublist.map _)).append
    (List.filter_sublist.map _)

theorem nodup_append_ite {l : List Join} (h : l.Nodup) (b : Bool) {x : Join} (hx : x ∉ l) :
    (l ++ if b then [x] else []).Nodup := by
  cases b with
  | false => simpa using h
  | true => simpa [List.concat_eq_append] using h.concat hx

theorem nodup_joins {p : RestorePlan} (h : p.Distinct) : (a.joins p).Nodup := by
  have hmd : (p.mdIntents.map fun i => ((.md i, a.join i) : Join)).Nodup :=
    h.map fun x y hxy => by cases hxy; rfl
  refine nodup_append_ite (nodup_append_ite (nodup_append_ite hmd _ ?_) _ ?_) _ ?_
  · simp
  · cases p.pnl <;> simp
  · cases p.pnl <;> cases p.order <;> simp

end PassAnswers

end RithmicNt.Host
