import RithmicNt.Lib.Machine
import RithmicNt.Adapter.FillStore

/-! Fills over whole runs: live notifications, the engine's fill reconciliation and the mass status,
in any order, over one dedup store. -/

namespace RithmicNt.Adapter

open RithmicNt.Lib RithmicNt.Exec

/-! ### Runs -/

/-- Who asked for the fill reports.  The mass status drops the list it gets. -/
inductive FillCaller
  | engine
  | massStatus
  deriving DecidableEq, Repr

inductive Act
  | live (env : Live) (event : OrderNotification)
  | fillReports (e : Engine) (cmd : FillCommand) (events : List OrderNotification)
      (caller : FillCaller)
  /-- What the rest of the adapter does to the account, the plant and the status book. -/
  | elsewhere (account : Account) (plant : PlantPolicy) (book : Lru StatusKey)

def Host.act (s : Host) : Act → Host
  | .live env event => (env.dispatchOrderEvent s event).host
  | .fillReports e cmd events caller =>
    match e.generateFillReports cmd s events, caller with
    | (s, .ok reports), .engine => { s with handed := s.handed ++ reports.map Prod.fst }
    | (s, _), _ => s
  | .elsewhere account plant book => { s with account := account, plant := plant, book := book }

def fillMachine (cap : Nat) : Machine Host Act where
  Start s := s.fills = .new cap ∧ s.uses = [] ∧ s.handed = []
  step s a := some (s.act a)

/-! ### Every fill at most once -/

theorem tally_handed {s : Host} {keys : List String} (h : Tally s keys) :
    Tally { s with handed := s.handed ++ keys } [] := by
  intro k
  simpa using h k

theorem tally_dropped {s : Host} {keys : List String} (h : Tally s keys) : Tally s [] := by
  intro k
  have := h k
  simp only [List.count_nil]
  omega

theorem act_logged {cap : Nat} {s : Host} (a : Act) (h : Logged cap s) : Logged cap (s.act a) := by
  cases a with
  | live env event => exact (dispatchOrderEvent_storeStep env s event).logged h
  | elsewhere account plant book => exact ⟨h.log, h.bound⟩
  | fillReports e cmd events caller =>
    obtain ⟨keys, hsteps, -⟩ := @generateFillReports_steps e cmd s events
    have hlogged := hsteps.logged h
    simp only [Host.act]
    rcases hcall : e.generateFillReports cmd s events with ⟨t, fault | reports⟩ <;>
      rw [hcall] at hlogged
    · exact hlogged
    · cases caller with
      | engine => exact ⟨hlogged.log, hlogged.bound⟩
      | massStatus => exact hlogged

theorem act_tally {s : Host} (a : Act) (h : Tally s []) : Tally (s.act a) [] := by
  cases a with
  | live env event => exact (dispatchOrderEvent_storeStep env s event).tally h
  | elsewhere account plant book => exact h
  | fillReports e cmd events caller =>
    obtain ⟨keys, hsteps, hkeys⟩ := @generateFillReports_steps e cmd s events
    have htally := hsteps.tally h
    simp only [Host.act]
    rcases hcall : e.generateFillReports cmd s events with ⟨t, fault | reports⟩ <;>
      rw [hcall] at htally hkeys
    · exact tally_dropped htally
    · cases caller with
      | engine =>
        rw [hkeys reports rfl] at htally
        exact tally_handed htally
      | massStatus => exact tally_dropped htally

theorem logged_start {cap : Nat} {s : Host} (h : (fillMachine cap).Start s) : Logged cap s := by
  obtain ⟨hfills, huses, -⟩ := h
  refine ⟨⟨[], ?_, ?_⟩, ?_⟩
  · rw [huses]
    exact .nil
  · rw [hfills]
    exact Lru.orders_new cap
  · rw [hfills]
    rfl

/-- Over every run, a fill is handed to the engine at most once, where fewer other keys than the store
holds are touched between two of its lookups. -/
theorem fill_handed_at_most_once (cap : Nat) {trace : List Act} {s : Host}
    (h : (fillMachine cap).Run Machine.Free trace s) (key : String)
    (hspaced : Recency.Spaced cap key s.uses) : s.handed.count key ≤ 1 := by
  have hinv : Logged cap s ∧ Tally s [] := by
    refine Machine.Run.invariant (I := fun s => Logged cap s ∧ Tally s []) ?_ ?_ h
    · intro s hstart
      refine ⟨logged_start hstart, ?_⟩
      intro k
      simp [hstart.2.1, hstart.2.2]
    · rintro s a t ⟨hlogged, htally⟩ - hstep
      obtain rfl := Option.some.inj hstep
      exact ⟨act_logged a hlogged, act_tally a htally⟩
  obtain ⟨⟨⟨l, hlog, -⟩, -⟩, htally⟩ := hinv
  have honce := hlog.count_marks_le_one hspaced
  have hcount := htally key
  simp only [List.count_nil] at hcount
  omega

/-- A notification during which everything succeeds, for the order `T1`. -/
def sampleLive : Act := .live (.accepting openCache) sampleFill

def sampleReports (caller : FillCaller) : Act :=
  .fillReports (.accepting 9) {} [sampleFill] caller

def sampleKey : String := "ACC|MNQZ6-CME.RITHMIC|F1"

theorem start_armed : (fillMachine 10000).Start .armed := ⟨rfl, rfl, rfl⟩

theorem fill_handed_at_most_once_live_then_recon :
    ∃ s, (fillMachine 10000).Run Machine.Free [sampleLive, sampleReports .engine] s ∧
      s.uses = [.look sampleKey false, .mark sampleKey, .look sampleKey true] ∧
      s.handed.count sampleKey ≤ 1 := by
  obtain ⟨s, hs, huses⟩ : ∃ s, (fillMachine 10000).exec Machine.Free .armed
      [sampleLive, sampleReports .engine] = some s ∧
      s.uses = [.look sampleKey false, .mark sampleKey, .look sampleKey true] := ⟨_, rfl, rfl⟩
  have hrun := Machine.run_of_exec start_armed hs
  refine ⟨s, hrun, huses, fill_handed_at_most_once 10000 hrun sampleKey ?_⟩
  refine Recency.spaced_of_card_lt ?_
  rw [huses]
  decide

/-! ### Every marked fill handed over -/

/-- A call that swallows no fill: in the mass status no row is reportable, and in a call of the engine
no row is reportable before one that raises. -/
def Harmless (s : Host) : Act → Prop
  | .live _ _ => True
  | .elsewhere _ _ _ => True
  | .fillReports e cmd events .massStatus => ∀ passed met raw,
      ReachesRow e cmd s events passed met raw → ∀ key, ¬ Reportable e cmd met raw key
  | .fillReports e cmd events .engine => ∀ passed met raw,
      ReachesRow e cmd s events passed met raw → RowRaises e cmd met raw →
        ∀ p ∈ passed, ∀ key, ¬ Reportable e cmd p.1 p.2 key

theorem covered_handed {s : Host} {keys : List String} (h : Covered s keys) :
    Covered { s with handed := s.handed ++ keys } [] := by
  intro k hk
  exact .inl (List.mem_append.mpr (h k hk))

theorem act_covered {s : Host} {a : Act} (hok : Harmless s a) (h : Covered s []) :
    Covered (s.act a) [] := by
  cases a with
  | live env event => exact (dispatchOrderEvent_storeStep env s event).covered h
  | elsewhere account plant book => exact h
  | fillReports e cmd events caller =>
    cases caller with
    | massStatus =>
      have hcovered := (generateFillReports_idle_steps hok).covered h
      simp only [Host.act]
      rcases hcall : e.generateFillReports cmd s events with ⟨t, fault | reports⟩ <;>
        rw [hcall] at hcovered <;> exact hcovered
    | engine =>
      obtain ⟨keys, hsteps, hkeys⟩ := @generateFillReports_steps e cmd s events
      have hcovered := hsteps.covered h
      simp only [Host.act]
      rcases hcall : e.generateFillReports cmd s events with ⟨t, fault | reports⟩
      · have hidle := (generateFillReports_error_steps (by rw [hcall]) hok).covered h
        rw [hcall] at hidle
        exact hidle
      · rw [hcall] at hcovered hkeys
        rw [hkeys reports rfl] at hcovered
        exact covered_handed hcovered

/-- Over every run whose calls swallow no fill, a key in the store is the key of a fill that was handed
to the engine. -/
theorem fill_marked_is_handed (cap : Nat) {trace : List Act} {s : Host}
    (h : (fillMachine cap).Run Harmless trace s) (key : String)
    (hmarked : s.fills.contains key = true) : key ∈ s.handed := by
  have hinv : Logged cap s ∧ Covered s [] := by
    refine Machine.Run.invariant (I := fun s => Logged cap s ∧ Covered s []) ?_ ?_ h
    · intro s hstart
      refine ⟨logged_start hstart, ?_⟩
      intro k hk
      rw [hstart.2.1] at hk
      cases hk
    · rintro s a t ⟨hlogged, hcovered⟩ hok hstep
      obtain rfl := Option.some.inj hstep
      exact ⟨act_logged a hlogged, act_covered hok hcovered⟩
  obtain ⟨⟨⟨l, hlog, horders⟩, -⟩, hcovered⟩ := hinv
  rw [horders.contains_eq, Recency.get?_isSome_iff] at hmarked
  exact (hcovered key (hlog.mem_marks hmarked)).resolve_right (by simp)

def externalFill : OrderNotification :=
  { sampleFill with basketId := some "B7", userTag := none, fillId := some "F7" }

theorem fill_marked_is_handed_live_then_recon :
    ∃ s, (fillMachine 10000).Run Harmless
        [sampleLive, .fillReports (.accepting 9) {} [externalFill] .engine] s ∧
      s.fills.contains sampleKey = true ∧ sampleKey ∈ s.handed := by
  have hlive : (fillMachine 10000).Run Harmless [sampleLive] (Host.armed.act sampleLive) :=
    .next (.start start_armed) trivial rfl
  have hsafe : Harmless (Host.armed.act sampleLive)
      (.fillReports (.accepting 9) {} [externalFill] .engine) := by
    rintro passed met raw hreach - p hp
    cases hreach with
    | here => cases hp
    | later _ hrest => cases hrest
  have hrun := Machine.Run.next hlive hsafe rfl
  exact ⟨_, hrun, rfl, fill_marked_is_handed 10000 hrun sampleKey rfl⟩

/-- A mass status marks a fill and drops its report; the fill is then skipped when it arrives live. -/
theorem fill_swallowed_by_mass_status :
    ∃ (cap : Nat) (trace : List Act) (s : Host) (key : String),
      (fillMachine cap).Run Machine.Free trace s ∧ s.fills.contains key = true ∧
        key ∉ s.handed := by
  obtain ⟨s, hs, hmarked, hhanded⟩ : ∃ s, (fillMachine 10000).exec Machine.Free .armed
      [sampleReports .massStatus, sampleLive] = some s ∧ s.fills.contains sampleKey = true ∧
      s.handed = [] := ⟨_, rfl, rfl, rfl⟩
  refine ⟨10000, _, s, sampleKey, Machine.run_of_exec start_armed hs, hmarked, ?_⟩
  rw [hhanded]
  simp

end RithmicNt.Adapter
