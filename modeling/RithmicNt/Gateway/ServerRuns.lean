import Mathlib.Data.List.Nodup
import RithmicNt.Gateway.ServerMoves

/-! Every request of a connection is answered once, and the command lane keeps the order of arrival. -/

namespace RithmicNt.Gateway.Server

open RithmicNt.Lib
open RithmicNt.Gateway.Calls (Bytes maxFrameLen)

variable {ρ : Type} {prost : Prost}
  {encodedLen : Frame ρ → Nat}

/-! ### Where the requests are -/

/-- The requests whose answer the reader itself is sending. -/
def Reader.answers : Reader ρ → List UInt64
  | .replying frame => [frame.requestId]
  | _ => []

def Reader.handed : Reader ρ → List UInt64
  | .handing req => [req.id]
  | _ => []

def Commands.ids : Commands ρ → List UInt64
  | .dispatching req => [req.id]
  | .replying frame _ => [frame.requestId]
  | _ => []

def Task.id : Task ρ → UInt64
  | .spawned req => req.id
  | .dispatching req => req.id
  | .replying frame => frame.requestId

def Task.spawned? : Task ρ → Option UInt64
  | .spawned req => some req.id
  | _ => none

def Writer.ids : Writer ρ → List UInt64
  | .writing frame => [frame.requestId]
  | _ => []

def Entry.taken? : Entry → Option UInt64
  | .refused id | .began id => some id
  | .ended _ => none

def Entry.began? : Entry → Option UInt64
  | .began id => some id
  | _ => none

namespace State

/-- The ids of the frames on the wire. -/
def answered (s : State ρ) : List UInt64 := s.wire.map (·.requestId)

/-- From the wire back to the command lane. -/
def front (s : State ρ) : List UInt64 :=
  s.answered ++ (s.writer.ids ++ (s.replies.map (·.requestId) ++ s.commands.ids))

/-- Before the command lane. -/
def waiting (s : State ρ) : List UInt64 := s.commandQueue.map (·.id) ++ s.reader.handed

/-- Slow requests that are not dispatched. -/
def unstarted (s : State ρ) : List UInt64 :=
  s.slowQueue.map (·.id) ++ (s.slowHeld.toList.map (·.id) ++ s.tasks.filterMap (·.spawned?))

def slow (s : State ρ) : List UInt64 :=
  s.slowQueue.map (·.id) ++ (s.slowHeld.toList.map (·.id) ++ s.tasks.map (·.id))

def ids (s : State ρ) : List UInt64 := s.front ++ (s.waiting ++ (s.reader.answers ++ s.slow))

end State

/-- The log of a lane that is not in a dispatch: each dispatch has ended before the next one began. -/
inductive Closed : List Entry → Prop
  | nil : Closed []
  | refused {log : List Entry} (id : UInt64) : Closed log → Closed (log ++ [Entry.refused id])
  | served {log : List Entry} (id : UInt64) : Closed log →
      Closed (log ++ [Entry.began id] ++ [Entry.ended id])

def OneAtATime (log : List Entry) : Prop :=
  Closed log ∨ ∃ before id, Closed before ∧ log = before ++ [Entry.began id]

def LogOk (log : List Entry) : Commands ρ → Prop
  | .dispatching req => ∃ before, Closed before ∧ log = before ++ [Entry.began req.id]
  | _ => Closed log

structure Inv (s : State ρ) : Prop where
  count : ∀ id, id ≠ 0 → s.ids.count id = s.seen.count id
  seen : s.seen.Nodup
  zero : 0 ∉ s.seen
  arrivedSeen : s.arrived.Sublist s.seen
  arrived : s.arrived = s.log.filterMap Entry.taken? ++ s.waiting
  order : s.front.filter (· ∈ s.arrived) = s.log.filterMap Entry.taken?
  answers : ∀ id ∈ s.reader.answers, id ∈ s.seen ∧ id ∉ s.arrived
  slow : ∀ id ∈ s.slow, id ∈ s.seen ∧ id ∉ s.arrived
  log : LogOk s.log s.commands
  slowBegan : s.slowBegan.Nodup
  slowBeganSeen : ∀ id ∈ s.slowBegan, id ∈ s.seen ∧ id ∉ s.arrived
  unstarted : ∀ id ∈ s.unstarted, id ∉ s.slowBegan

/-! ### Lists of tasks -/

section Tasks

variable {tasks : List (Task ρ)} {i : Nat} {old new : Task ρ}

theorem map_id_set (h : tasks[i]? = some old) (hid : new.id = old.id) :
    (tasks.set i new).map (·.id) = tasks.map (·.id) := by
  apply List.ext_getElem?
  intro j
  rw [List.getElem?_map, List.getElem?_map, List.getElem?_set]
  split
  · next hij =>
    subst hij
    rw [h]
    obtain ⟨hlt, -⟩ := List.getElem?_eq_some_iff.mp h
    simp [hlt, hid]
  · rfl

theorem perm_cons_eraseIdx (h : tasks[i]? = some old) : tasks.Perm (old :: tasks.eraseIdx i) := by
  obtain ⟨hlt, rfl⟩ := List.getElem?_eq_some_iff.mp h
  exact (List.getElem_cons_eraseIdx_perm hlt).symm

/-- A task that is spawned after a task has started was so before, and is not that task. -/
theorem mem_spawned_set (hnew : new.spawned? = none) {id : UInt64}
    (hmem : id ∈ (tasks.set i new).filterMap (·.spawned?)) :
    ∃ j, j ≠ i ∧ tasks[j]?.bind (·.spawned?) = some id := by
  obtain ⟨task, htask, hid⟩ := List.mem_filterMap.mp hmem
  obtain ⟨j, hj⟩ := List.getElem?_of_mem htask
  rw [List.getElem?_set] at hj
  split at hj
  · split at hj
    · cases hj
      simp [hnew] at hid
    · cases hj
  · next hij =>
    exact ⟨j, fun hji => hij hji.symm, by rw [hj]; exact hid⟩

end Tasks

/-! ### One step -/

section Steps

variable {s t : State ρ}

/-- A new id is in no place. -/
theorem Inv.fresh {id : UInt64} (h : Inv s) (hzero : id ≠ 0) (hseen : id ∉ s.seen) : id ∉ s.ids := by
  intro hmem
  have hcount := h.count id hzero
  rw [List.count_eq_zero.mpr hseen] at hcount
  exact List.count_eq_zero.mp hcount hmem

theorem Inv.slow_nodup (h : Inv s) : s.slow.Nodup := by
  refine List.nodup_iff_count_le_one.mpr fun id => ?_
  by_cases hmem : id ∈ s.slow
  · have hseen := (h.slow id hmem).1
    have hzero : id ≠ 0 := fun hz => h.zero (hz ▸ hseen)
    have hcount := h.count id hzero
    have hone := List.nodup_iff_count_le_one.mp h.seen id
    simp only [State.ids, List.count_append] at hcount
    omega
  · rw [List.count_eq_zero.mpr hmem]
    omega

theorem Inv.zero_arrived (h : Inv s) : 0 ∉ s.arrived :=
  fun hmem => h.zero (h.arrivedSeen.subset hmem)

/-- A step that neither reads a request nor dispatches one: the requests move on. -/
theorem Inv.forward (h : Inv s) (hseen : t.seen = s.seen) (harrived : t.arrived = s.arrived)
    (hlog : t.log = s.log) (hbegan : t.slowBegan = s.slowBegan)
    (hcount : ∀ id, id ≠ 0 → t.ids.count id = s.ids.count id) (hwaiting : t.waiting = s.waiting)
    (horder : t.front.filter (· ∈ s.arrived) = s.front.filter (· ∈ s.arrived))
    (hanswers : t.reader.answers ⊆ s.reader.answers) (hslow : t.slow ⊆ s.slow)
    (hunstarted : t.unstarted ⊆ s.unstarted) (hlogOk : LogOk s.log t.commands) : Inv t where
  count id hid := by rw [hcount id hid, hseen, h.count id hid]
  seen := hseen ▸ h.seen
  zero := hseen ▸ h.zero
  arrivedSeen := by rw [hseen, harrived]; exact h.arrivedSeen
  arrived := by rw [harrived, hlog, hwaiting]; exact h.arrived
  order := by rw [harrived, hlog, horder]; exact h.order
  answers id hid := by rw [hseen, harrived]; exact h.answers id (hanswers hid)
  slow id hid := by rw [hseen, harrived]; exact h.slow id (hslow hid)
  log := hlog ▸ hlogOk
  slowBegan := hbegan ▸ h.slowBegan
  slowBeganSeen id hid := by rw [hseen, harrived]; exact h.slowBeganSeen id (hbegan ▸ hid)
  unstarted id hid := by rw [hbegan]; exact h.unstarted id (hunstarted hid)

/-- Nothing that the invariant speaks of changes. -/
theorem Inv.control (h : Inv s) (hseen : t.seen = s.seen) (harrived : t.arrived = s.arrived)
    (hlog : t.log = s.log) (hbegan : t.slowBegan = s.slowBegan) (hfront : t.front = s.front)
    (hwaiting : t.waiting = s.waiting) (hanswers : t.reader.answers = s.reader.answers)
    (hslow : t.slow = s.slow) (hunstarted : t.unstarted = s.unstarted)
    (hlogOk : LogOk s.log t.commands) : Inv t := by
  refine h.forward hseen harrived hlog hbegan (fun id _ => ?_) hwaiting (by rw [hfront])
    (by rw [hanswers]; exact fun _ hid => hid) (by rw [hslow]; exact fun _ hid => hid)
    (by rw [hunstarted]; exact fun _ hid => hid) hlogOk
  simp only [State.ids, hfront, hwaiting, hanswers, hslow]

/-- The filter of the front by the command lane's ids does not see an id that is not one of them. -/
theorem filter_cons_of_not_arrived {arrived : List UInt64} {id : UInt64} {a b : List UInt64}
    (h : id ∉ arrived) : (a ++ id :: b).filter (· ∈ arrived) = (a ++ b).filter (· ∈ arrived) := by
  simp [List.filter_append, h]

theorem Inv.readerReply {frame : Frame ρ} (h : Inv s) (hr : s.reader = .replying frame) :
    Inv { s.push frame with reader := .reading } := by
  have hid := h.answers frame.requestId (by simp [hr, Reader.answers])
  refine h.forward rfl rfl rfl rfl (fun id _ => ?_) ?_ ?_ (by simp [Reader.answers])
    (fun _ hid => hid) (fun _ hid => hid) h.log
  · simp only [State.ids, State.front, State.waiting, State.slow, State.answered, State.push, hr,
      Reader.handed, Reader.answers, List.map_append, List.map_cons, List.map_nil, List.count_append,
      List.count_nil]
    omega
  · simp [State.waiting, State.push, hr, Reader.handed]
  · simp [State.front, State.answered, State.push, List.filter_append, hid.2]

theorem Inv.slowReply {i : Nat} {frame : Frame ρ} (h : Inv s)
    (ht : s.tasks[i]? = some (.replying frame)) :
    Inv { s.push frame with tasks := s.tasks.eraseIdx i } := by
  have hperm := perm_cons_eraseIdx ht
  have hid := h.slow frame.requestId (by
    have hmem : Task.replying frame ∈ s.tasks := List.mem_of_getElem? ht
    exact List.mem_append_right _ (List.mem_append_right _ (List.mem_map.mpr ⟨_, hmem, rfl⟩)))
  have hsub : (s.tasks.eraseIdx i).Sublist s.tasks := List.eraseIdx_sublist ..
  refine h.forward rfl rfl rfl rfl (fun id _ => ?_) rfl ?_ (fun _ hid => hid) ?_ ?_ h.log
  · have hcount : (s.tasks.map (·.id)).count id =
        [frame.requestId].count id + ((s.tasks.eraseIdx i).map (·.id)).count id := by
      rw [(hperm.map (·.id)).count_eq id, List.map_cons, ← List.singleton_append, List.count_append]
      rfl
    simp only [State.ids, State.front, State.waiting, State.slow, State.answered, State.push,
      List.map_append, List.map_cons, List.map_nil, List.count_append, hcount]
    omega
  · simp [State.front, State.answered, State.push, List.filter_append, hid.2]
  · intro id hmem
    simp only [State.slow, State.push, List.mem_append] at hmem ⊢
    exact hmem.imp_right fun hmem => hmem.imp_right fun hmem => (hsub.map _).subset hmem
  · intro id hmem
    simp only [State.unstarted, State.push, List.mem_append] at hmem ⊢
    exact hmem.imp_right fun hmem => hmem.imp_right fun hmem => (hsub.filterMap _).subset hmem

theorem Inv.commandReply {frame : Frame ρ} {close : Bool} (h : Inv s)
    (hc : s.commands = .replying frame close) : Inv { s.push frame with commands := .waiting } := by
  have hlog := h.log
  rw [hc] at hlog
  refine h.control rfl rfl rfl rfl ?_ rfl rfl rfl rfl hlog
  simp [State.front, State.answered, State.push, hc, Commands.ids]

theorem Inv.writerTake {frame wire : Frame ρ} {rest : List (Frame ρ)} (h : Inv s)
    (hw : s.writer = .idle) (hr : s.replies = frame :: rest)
    (hid : wire.requestId = frame.requestId) :
    Inv { s with writer := .writing wire, replies := rest } := by
  refine h.control rfl rfl rfl rfl ?_ rfl rfl rfl rfl h.log
  simp [State.front, State.answered, hw, hr, Writer.ids, hid]

theorem Inv.written {frame : Frame ρ} (h : Inv s) (hw : s.writer = .writing frame) :
    Inv { s with writer := .idle, wire := s.wire ++ [frame] } := by
  refine h.control rfl rfl rfl rfl ?_ rfl rfl rfl rfl h.log
  simp [State.front, State.answered, hw, Writer.ids]

/-- A frame without a request id joins the front. -/
theorem Inv.zero_front (h : Inv s) {a b : List UInt64} (hs : s.front = a ++ b)
    (ht : t.front = a ++ 0 :: b) (hseen : t.seen = s.seen) (harrived : t.arrived = s.arrived)
    (hlog : t.log = s.log) (hbegan : t.slowBegan = s.slowBegan) (hwaiting : t.waiting = s.waiting)
    (hanswers : t.reader.answers = s.reader.answers) (hslow : t.slow = s.slow)
    (hunstarted : t.unstarted = s.unstarted) (hcommands : t.commands = s.commands) : Inv t := by
  refine h.forward hseen harrived hlog hbegan (fun id hid => ?_) hwaiting ?_
    (by rw [hanswers]; exact fun _ hid => hid) (by rw [hslow]; exact fun _ hid => hid)
    (by rw [hunstarted]; exact fun _ hid => hid) (hcommands ▸ h.log)
  · have hne : ¬ (0 : UInt64) = id := fun heq => hid heq.symm
    simp only [State.ids, hs, ht, hwaiting, hanswers, hslow, List.count_append, List.count_cons,
      beq_iff_eq, hne, if_false]
    omega
  · rw [hs, ht]
    exact filter_cons_of_not_arrived h.zero_arrived

theorem Inv.fanout (h : Inv s) (hw : s.writer = .idle) :
    Inv { s with writer := .writing ⟨0, .event⟩ } := by
  refine h.zero_front (a := s.answered) (b := s.replies.map (·.requestId) ++ s.commands.ids)
    ?_ ?_ rfl rfl rfl rfl rfl rfl rfl rfl rfl
  · simp [State.front, hw, Writer.ids]
  · simp [State.front, State.answered, Writer.ids]

theorem Inv.notified {frame : Frame ρ} (h : Inv s) (hzero : frame.requestId = 0) :
    Inv { s.push frame with main := .serving } := by
  refine h.zero_front (a := s.answered ++ (s.writer.ids ++ s.replies.map (·.requestId)))
    (b := s.commands.ids) ?_ ?_ rfl rfl rfl rfl rfl rfl rfl rfl rfl
  · simp [State.front]
  · simp [State.front, State.answered, State.push, hzero]

theorem Inv.readerHand {req : Request} (h : Inv s) (hr : s.reader = .handing req) :
    Inv { s with reader := .reading, commandQueue := s.commandQueue ++ [req] } := by
  refine h.control rfl rfl rfl rfl rfl ?_ ?_ rfl rfl h.log
  · simp [State.waiting, hr, Reader.handed]
  · simp [hr, Reader.answers]

theorem Inv.slowTake {req : Request} {rest : List Request} (h : Inv s) (hheld : s.slowHeld = none)
    (hq : s.slowQueue = req :: rest) : Inv { s with slowHeld := some req, slowQueue := rest } := by
  refine h.forward rfl rfl rfl rfl (fun id _ => ?_) rfl rfl (fun _ hid => hid) ?_ ?_ h.log
  · simp [State.ids, State.front, State.answered, State.waiting, State.slow, hheld, hq,
      List.count_cons]
    omega
  · intro id hid
    simpa [State.slow, hheld, hq, or_assoc, or_comm, or_left_comm] using hid
  · intro id hid
    simpa [State.unstarted, hheld, hq, or_assoc, or_comm, or_left_comm] using hid

theorem Inv.slowSpawn {req : Request} (h : Inv s) (hheld : s.slowHeld = some req) :
    Inv { s with slowHeld := none, tasks := s.tasks ++ [Task.spawned req] } := by
  refine h.forward rfl rfl rfl rfl (fun id _ => ?_) rfl rfl (fun _ hid => hid) ?_ ?_ h.log
  · simp [State.ids, State.front, State.answered, State.waiting, State.slow, hheld, Task.id,
      List.count_cons]
  · intro id hid
    simpa [State.slow, hheld, Task.id, or_assoc, or_comm, or_left_comm] using hid
  · intro id hid
    simpa [State.unstarted, hheld, Task.spawned?, or_assoc, or_comm, or_left_comm] using hid

/-- A task goes on, and is not waiting to start any more. -/
theorem Inv.slowAdvance {i : Nat} {old : Task ρ} (h : Inv s) (new : Task ρ)
    (ht : s.tasks[i]? = some old) (hid : new.id = old.id) (hnew : new.spawned? = none) :
    Inv { s with tasks := s.tasks.set i new } := by
  have hmap := map_id_set ht hid
  have hslow : ({ s with tasks := s.tasks.set i new } : State ρ).slow = s.slow := by
    simp only [State.slow, hmap]
  refine h.forward rfl rfl rfl rfl (fun id _ => ?_) rfl rfl (fun _ hid => hid)
    (by rw [hslow]; exact fun _ hid => hid) ?_ h.log
  · show List.count id (s.front ++ (s.waiting ++ (s.reader.answers ++ State.slow _))) = _
    rw [hslow]
    rfl
  · intro id hmem
    simp only [State.unstarted, List.mem_append] at hmem ⊢
    refine hmem.imp_right fun hmem => hmem.imp_right fun hmem => ?_
    obtain ⟨j, -, hj⟩ := mem_spawned_set hnew hmem
    obtain ⟨task, htask, hspawned⟩ := Option.bind_eq_some_iff.mp hj
    exact List.mem_filterMap.mpr ⟨task, List.mem_of_getElem? htask, hspawned⟩

theorem nodup_snoc {l : List UInt64} {a : UInt64} (h : l.Nodup) (ha : a ∉ l) : (l ++ [a]).Nodup := by
  simpa [List.concat_eq_append] using h.concat ha

/-- One id is new, and not for the command lane. -/
theorem Inv.arrive (h : Inv s) {id : UInt64} (hzero : id ≠ 0) (hfresh : id ∉ s.seen)
    (hseen : t.seen = s.seen ++ [id]) (harrived : t.arrived = s.arrived) (hlog : t.log = s.log)
    (hbegan : t.slowBegan = s.slowBegan) (hfront : t.front = s.front)
    (hwaiting : t.waiting = s.waiting) (hcommands : t.commands = s.commands)
    (hids : ∀ j, t.ids.count j = s.ids.count j + [id].count j)
    (hanswers : ∀ j ∈ t.reader.answers, j ∈ s.reader.answers ∨ j = id)
    (hslow : ∀ j ∈ t.slow, j ∈ s.slow ∨ j = id)
    (hunstarted : ∀ j ∈ t.unstarted, j ∈ s.unstarted ∨ j = id) : Inv t where
  count j hj := by
    rw [hids j, hseen, List.count_append, h.count j hj]
  seen := by
    rw [hseen]
    exact nodup_snoc h.seen hfresh
  zero := by
    rw [hseen]
    simpa using ⟨h.zero, hzero.symm⟩
  arrivedSeen := by
    rw [hseen, harrived]
    exact h.arrivedSeen.trans (List.sublist_append_left ..)
  arrived := by rw [harrived, hlog, hwaiting]; exact h.arrived
  order := by rw [harrived, hlog, hfront]; exact h.order
  answers j hj := by
    rw [hseen, harrived]
    rcases hanswers j hj with hj | rfl
    · exact ⟨List.mem_append_left _ (h.answers j hj).1, (h.answers j hj).2⟩
    · exact ⟨by simp, fun hmem => hfresh (h.arrivedSeen.subset hmem)⟩
  slow j hj := by
    rw [hseen, harrived]
    rcases hslow j hj with hj | rfl
    · exact ⟨List.mem_append_left _ (h.slow j hj).1, (h.slow j hj).2⟩
    · exact ⟨by simp, fun hmem => hfresh (h.arrivedSeen.subset hmem)⟩
  log := by rw [hlog, hcommands]; exact h.log
  slowBegan := hbegan ▸ h.slowBegan
  slowBeganSeen j hj := by
    rw [hbegan] at hj
    rw [hseen, harrived]
    exact ⟨List.mem_append_left _ (h.slowBeganSeen j hj).1, (h.slowBeganSeen j hj).2⟩
  unstarted j hj := by
    rw [hbegan]
    rcases hunstarted j hj with hj | rfl
    · exact h.unstarted j hj
    · exact fun hmem => hfresh (h.slowBeganSeen j hmem).1

theorem Inv.answer {frame : Frame ρ} (h : Inv s) (hr : s.reader = .reading)
    (hzero : frame.requestId ≠ 0) (hfresh : frame.requestId ∉ s.seen) :
    Inv { s with reader := .replying frame, seen := s.seen ++ [frame.requestId] } := by
  refine h.arrive hzero hfresh rfl rfl rfl rfl rfl ?_ rfl (fun j => ?_) ?_ (fun j hj => .inl hj)
    fun j hj => .inl hj
  · simp [State.waiting, hr, Reader.handed]
  · simp only [State.ids, State.front, State.answered, State.waiting, State.slow, hr, Reader.handed,
      Reader.answers, List.count_append, List.count_nil]
    omega
  · intro j hj
    exact .inr (List.mem_singleton.mp hj)

theorem Inv.slowArrive {req : Request} (h : Inv s) (hzero : req.id ≠ 0) (hfresh : req.id ∉ s.seen) :
    Inv { s with slowQueue := s.slowQueue ++ [req], seen := s.seen ++ [req.id] } := by
  refine h.arrive hzero hfresh rfl rfl rfl rfl rfl rfl rfl (fun j => ?_) (fun j hj => .inl hj) ?_ ?_
  · simp only [State.ids, State.front, State.answered, State.waiting, State.slow, List.map_append,
      List.map_cons, List.map_nil, List.count_append]
    omega
  · intro j hj
    simp only [State.slow, List.map_append, List.mem_append, List.map_cons, List.map_nil,
      List.mem_singleton] at hj ⊢
    tauto
  · intro j hj
    simp only [State.unstarted, List.map_append, List.mem_append, List.map_cons, List.map_nil,
      List.mem_singleton] at hj ⊢
    tauto

theorem Inv.command {req : Request} (h : Inv s) (hr : s.reader = .reading) (hzero : req.id ≠ 0)
    (hfresh : req.id ∉ s.seen) :
    Inv { s with
      reader := .handing req, seen := s.seen ++ [req.id], arrived := s.arrived ++ [req.id] } where
  count j hj := by
    have hcount := h.count j hj
    simp only [State.ids, State.front, State.answered, State.waiting, State.slow, hr, Reader.handed,
      Reader.answers, List.count_append, List.count_nil] at hcount ⊢
    omega
  seen := nodup_snoc h.seen hfresh
  zero := by simpa using ⟨h.zero, hzero.symm⟩
  arrivedSeen := h.arrivedSeen.append (List.Sublist.refl _)
  arrived := by
    have harrived := h.arrived
    simp only [State.waiting, hr, Reader.handed, List.append_nil] at harrived ⊢
    rw [harrived, List.append_assoc]
  order := by
    rw [← h.order]
    refine List.filter_congr fun j hj => ?_
    have hne : j ≠ req.id := by
      rintro rfl
      exact h.fresh hzero hfresh (List.mem_append_left _ hj)
    simp [hne]
  answers := by simp [Reader.answers]
  slow j hj := by
    obtain ⟨hseen, harrived⟩ := h.slow j hj
    refine ⟨List.mem_append_left _ hseen, ?_⟩
    simpa using ⟨harrived, fun heq => hfresh (heq ▸ hseen)⟩
  log := h.log
  slowBegan := h.slowBegan
  slowBeganSeen j hj := by
    obtain ⟨hseen, harrived⟩ := h.slowBeganSeen j hj
    refine ⟨List.mem_append_left _ hseen, ?_⟩
    simpa using ⟨harrived, fun heq => hfresh (heq ▸ hseen)⟩
  unstarted := h.unstarted

/-- The command lane takes the first of the requests that wait for it. -/
theorem Inv.take_with {req : Request} {rest : List Request} {commands : Commands ρ} {entry : Entry}
    (h : Inv s) (hc : s.commands = .waiting) (hq : s.commandQueue = req :: rest)
    (hids : commands.ids = [req.id]) (htaken : entry.taken? = some req.id)
    (hlog : LogOk (s.log ++ [entry]) commands) :
    Inv { s with commandQueue := rest, commands := commands, log := s.log ++ [entry] } where
  count id hid := by
    have hqueue : (s.commandQueue.map (·.id)).count id =
        [req.id].count id + (rest.map (·.id)).count id := by
      rw [hq, List.map_cons, ← List.singleton_append, List.count_append]
    have hidle : s.commands.ids = [] := by rw [hc]; rfl
    have hcount := h.count id hid
    simp only [State.ids, State.front, State.answered, State.waiting, State.slow, hidle, hqueue, hids,
      List.count_append, List.count_nil] at hcount ⊢
    omega
  seen := h.seen
  zero := h.zero
  arrivedSeen := h.arrivedSeen
  arrived := by
    have harrived := h.arrived
    simp only [State.waiting, hq, List.map_cons, List.filterMap_append, List.filterMap_cons, htaken,
      List.filterMap_nil, List.append_assoc, List.cons_append, List.nil_append] at harrived ⊢
    exact harrived
  order := by
    have hmem : req.id ∈ s.arrived := by
      rw [h.arrived]
      simp [State.waiting, hq]
    have hidle : s.commands.ids = [] := by rw [hc]; rfl
    have horder := h.order
    simp only [State.front, State.answered, hidle, hids, List.append_nil, List.filter_append,
      List.filterMap_append, List.filterMap_cons, htaken, List.filterMap_nil] at horder ⊢
    rw [← horder]
    simp [hmem]
  answers := h.answers
  slow := h.slow
  log := hlog
  slowBegan := h.slowBegan
  slowBeganSeen := h.slowBeganSeen
  unstarted := h.unstarted

theorem Inv.take {req : Request} {rest : List Request} (h : Inv s) (hc : s.commands = .waiting)
    (hq : s.commandQueue = req :: rest) : Inv (s.take req rest) := by
  have hlog := h.log
  rw [hc] at hlog
  have hlog : Closed s.log := hlog
  unfold State.take
  split
  · exact h.take_with hc hq rfl rfl (.refused _ hlog)
  · exact h.take_with hc hq rfl rfl ⟨s.log, hlog, rfl⟩

theorem Inv.handled {req : Request} {outcome : Option (Reply ρ)} (h : Inv s)
    (hc : s.commands = .dispatching req) : Inv (s.handled req outcome) := by
  have hlog := h.log
  rw [hc] at hlog
  obtain ⟨before, hbefore, hlog⟩ := hlog
  have hids : (s.handled req outcome).commands.ids = s.commands.ids := by
    rw [hc]
    cases outcome <;> rfl
  have htaken : (s.log ++ [Entry.ended req.id]).filterMap Entry.taken? = s.log.filterMap Entry.taken? := by
    simp [Entry.taken?]
  have hfront : (s.handled req outcome).front = s.front := by
    simp only [State.front, State.answered, hids]
    rfl
  exact {
    count := fun id hid => by
      have hcount := h.count id hid
      simp only [State.ids] at hcount ⊢
      rw [hfront]
      exact hcount
    seen := h.seen
    zero := h.zero
    arrivedSeen := h.arrivedSeen
    arrived := by
      show s.arrived = (s.log ++ [Entry.ended req.id]).filterMap Entry.taken? ++ s.waiting
      rw [htaken]
      exact h.arrived
    order := by
      show _ = (s.log ++ [Entry.ended req.id]).filterMap Entry.taken?
      rw [hfront, htaken]
      exact h.order
    answers := h.answers
    slow := h.slow
    log := by
      show Closed (s.log ++ [Entry.ended req.id])
      rw [hlog]
      exact .served req.id hbefore
    slowBegan := h.slowBegan
    slowBeganSeen := h.slowBeganSeen
    unstarted := h.unstarted }

/-- A task that starts leaves the requests that are not dispatched. -/
theorem Inv.not_unstarted {i : Nat} {req : Request} (h : Inv s)
    (ht : s.tasks[i]? = some (.spawned req)) :
    req.id ∉ ({ s with
      tasks := s.tasks.set i (.dispatching req), slowBegan := s.slowBegan ++ [req.id] } :
      State ρ).unstarted := by
  have hnodup := h.slow_nodup
  have hmem : req.id ∈ s.tasks.map (·.id) :=
    List.mem_map.mpr ⟨_, List.mem_of_getElem? ht, rfl⟩
  obtain ⟨-, hrest, hqueue⟩ := List.nodup_append.mp hnodup
  obtain ⟨-, htasks, hheld⟩ := List.nodup_append.mp hrest
  intro hid
  rcases List.mem_append.mp hid with hid | hid
  · exact hqueue _ hid _ (List.mem_append_right _ hmem) rfl
  · rcases List.mem_append.mp hid with hid | hid
    · exact hheld _ hid _ hmem rfl
    · obtain ⟨j, hne, hj⟩ := mem_spawned_set rfl hid
      obtain ⟨task, htask, hspawned⟩ := Option.bind_eq_some_iff.mp hj
      have hsame : task.id = req.id := by
        cases task with
        | spawned r => exact Option.some.inj hspawned
        | _ => cases hspawned
      have heq : (s.tasks.map (·.id))[j]? = (s.tasks.map (·.id))[i]? := by
        rw [List.getElem?_map, List.getElem?_map, ht, htask]
        exact congrArg some hsame
      obtain ⟨hlt, -⟩ := List.getElem?_eq_some_iff.mp htask
      exact hne ((List.getElem?_inj (by simpa using hlt) htasks).mp heq)

theorem Inv.slowStart {i : Nat} {req : Request} (h : Inv s)
    (ht : s.tasks[i]? = some (.spawned req)) :
    Inv { s with
      tasks := s.tasks.set i (.dispatching req), slowBegan := s.slowBegan ++ [req.id] } := by
  have hmem : Task.spawned req ∈ s.tasks := List.mem_of_getElem? ht
  have hunstarted : req.id ∈ s.unstarted :=
    List.mem_append_right _ (List.mem_append_right _ (List.mem_filterMap.mpr ⟨_, hmem, rfl⟩))
  have hslow := h.slow req.id
    (List.mem_append_right _ (List.mem_append_right _ (List.mem_map.mpr ⟨_, hmem, rfl⟩)))
  have hadvance := h.slowAdvance (.dispatching req) ht rfl rfl
  have hnodup := h.slow_nodup
  exact {
    hadvance with
    slowBegan := nodup_snoc h.slowBegan (h.unstarted req.id hunstarted)
    slowBeganSeen := by
      intro id hid
      rcases List.mem_append.mp hid with hid | hid
      · exact h.slowBeganSeen id hid
      · rw [List.mem_singleton.mp hid]
        exact hslow
    unstarted := by
      intro id hid hbegan
      rcases List.mem_append.mp hbegan with hbegan | hbegan
      · exact hadvance.unstarted id hid hbegan
      · rw [List.mem_singleton.mp hbegan] at hid
        exact h.not_unstarted ht hid }

theorem Inv.move (h : Inv s) (hm : Move s t) : Inv t := by
  cases hm with
  | answer frame hr hzero hfresh => exact h.answer hr hzero hfresh
  | command req hr hzero hfresh => exact h.command hr hzero hfresh
  | slow req _ hzero hfresh => exact h.slowArrive hzero hfresh
  | readerEnd hr =>
    refine h.control rfl rfl rfl rfl rfl ?_ ?_ rfl rfl h.log
    · simp [State.waiting, hr, Reader.handed]
    · simp [hr, Reader.answers]
  | readerReply frame hr => exact h.readerReply hr
  | readerHand req hr => exact h.readerHand hr
  | take req rest hc hq => exact h.take hc hq
  | commandsEnd hc =>
    have hlog := h.log
    rw [hc] at hlog
    refine h.control rfl rfl rfl rfl ?_ rfl rfl rfl rfl hlog
    simp [State.front, State.answered, hc, Commands.ids]
  | handled req outcome hc => exact h.handled hc
  | commandReply frame close hc => exact h.commandReply hc
  | slowTake req rest hheld hq => exact h.slowTake hheld hq
  | slowSpawn req hheld => exact h.slowSpawn hheld
  | slowStart i req ht => exact h.slowStart ht
  | slowRefuse i req ht => exact h.slowAdvance _ ht rfl rfl
  | slowHandled i req body ht => exact h.slowAdvance _ ht rfl rfl
  | slowReply i frame ht => exact h.slowReply ht
  | writerTake frame wire rest hw hr hid => exact h.writerTake hw hr hid
  | fanout hw => exact h.fanout hw
  | written frame hw => exact h.written hw
  | notified frame _ hzero => exact h.notified hzero
  | writerEnd main hflushed =>
    refine h.control rfl rfl rfl rfl ?_ rfl rfl rfl rfl h.log
    have hids : s.writer.ids = [] := by
      rcases hflushed.writer with hw | hw <;> rw [hw] <;> rfl
    rw [State.front, State.front, hids]
    rfl
  | setReady ready => exact h.control rfl rfl rfl rfl rfl rfl rfl rfl rfl h.log
  | session => exact h.control rfl rfl rfl rfl rfl rfl rfl rfl rfl h.log
  | commandsDone => exact h.control rfl rfl rfl rfl rfl rfl rfl rfl rfl h.log

theorem inv_of_run (hfit : ∀ id len, encodedLen
      (errorFrame id "response_too_large" (frameTooLarge len)) ≤ maxFrameLen)
    {trace : List (Event ρ)} (hrun : (machine prost encodedLen).Run (Kept prost) trace s) :
    Live s ∧ Inv s := by
  refine hrun.invariant (I := fun s => Live s ∧ Inv s) ?_ ?_
  · rintro s rfl
    refine ⟨⟨rfl, by simp, by simp, by simp, by simp, by simp, by simp, by simp, by simp, by simp⟩, ?_⟩
    exact ⟨by simp [State.ids, State.front, State.answered, State.waiting, State.slow, Writer.ids,
      Commands.ids, Reader.handed, Reader.answers], by simp, by simp, by simp,
      by simp [State.waiting, Reader.handed], by simp [State.front, State.answered, Writer.ids,
      Commands.ids], by simp [Reader.answers], by simp [State.slow], .nil, by simp, by simp,
      by simp [State.unstarted]⟩
  · rintro s e t ⟨hlive, hinv⟩ hok hstep
    have hmove := step_move hfit hlive hok hstep
    exact ⟨hlive.move hmove, hinv.move hmove⟩

end Steps

/-! ### At rest -/

/-- None of the connection's own tasks can go on: the handlers have ended, and the queues are
drained. -/
def AtRest (prost : Prost) (encodedLen : Frame ρ → Nat)
    (s : State ρ) : Prop :=
  ∀ e : Event ρ, e.Own → s.step prost encodedLen e = none

section Rest

variable {s : State ρ}

theorem AtRest.writer (h : AtRest prost encodedLen s) (frame : Frame ρ) :
    s.writer ≠ .writing frame := by
  intro hw
  have := h .written trivial
  simp [State.step, hw] at this

theorem AtRest.replies (h : AtRest prost encodedLen s) (hlive : Live s) : s.replies = [] := by
  cases hw : s.writer with
  | ended => exact (hlive.writer hw).1.replies
  | writing frame => exact absurd hw (h.writer frame)
  | idle =>
    cases hr : s.replies with
    | nil => rfl
    | cons frame rest =>
      have hnone := h .writerTake trivial
      simp only [State.step, hw, hr] at hnone
      split at hnone <;> cases hnone

theorem AtRest.hasRoom (h : AtRest prost encodedLen s) (hlive : Live s) : s.hasRoom = true := by
  simp [State.hasRoom, h.replies hlive, Limit.commandQueue, Limit.slowQueue]

theorem AtRest.commands (h : AtRest prost encodedLen s) (hlive : Live s) :
    (s.commands = .waiting ∨ s.commands = .ended) ∧ s.commandQueue = [] := by
  cases hc : s.commands with
  | waiting =>
    refine ⟨.inl rfl, ?_⟩
    cases hq : s.commandQueue with
    | nil => rfl
    | cons req rest =>
      have hnone := h .command trivial
      simp [State.step, hc, hq, hlive.stop] at hnone
  | dispatching req =>
    have hnone := h (.handled none) trivial
    simp [State.step, hc] at hnone
  | replying frame close =>
    have hnone := h .commandReply trivial
    simp only [State.step, hc, h.hasRoom hlive, if_true] at hnone
    split at hnone <;> cases hnone
  | ended => exact ⟨.inr rfl, (hlive.commands hc).2⟩

theorem AtRest.reader (h : AtRest prost encodedLen s) (hlive : Live s) :
    s.reader = .reading ∨ s.reader = .ended := by
  cases hr : s.reader with
  | reading => exact .inl rfl
  | replying frame =>
    have hnone := h .readerReply trivial
    simp only [State.step, hr, h.hasRoom hlive, if_true] at hnone
    split at hnone <;> cases hnone
  | handing req =>
    have hnone := h .readerHand trivial
    have hroom : s.commandQueue.length < Limit.commandQueue := by
      simp [(h.commands hlive).2, Limit.commandQueue]
    simp only [State.step, hr, hroom, if_true] at hnone
    split at hnone <;> cases hnone
  | ended => exact .inr rfl

theorem AtRest.tasks (h : AtRest prost encodedLen s) (hlive : Live s) : s.tasks = [] := by
  cases ht : s.tasks with
  | nil => rfl
  | cons task rest =>
    have hfirst : s.tasks[0]? = some task := by simp [ht]
    cases task with
    | spawned req =>
      have hnone := h (.slowStart 0) trivial
      simp only [State.step, hfirst] at hnone
      split at hnone <;> cases hnone
    | dispatching req =>
      have hnone := h (.slowHandled 0 none) trivial
      simp [State.step, hfirst] at hnone
    | replying frame =>
      have hnone := h (.slowReply 0) trivial
      simp only [State.step, hfirst, h.hasRoom hlive, if_true] at hnone
      split at hnone <;> cases hnone

theorem AtRest.slow (h : AtRest prost encodedLen s) (hlive : Live s) : s.slow = [] := by
  have htasks := h.tasks hlive
  have hheld : s.slowHeld = none := by
    cases hheld : s.slowHeld with
    | none => rfl
    | some req =>
      have hnone := h .slowSpawn trivial
      simp [State.step, hheld, htasks, Limit.slowConcurrency] at hnone
  have hqueue : s.slowQueue = [] := by
    cases hq : s.slowQueue with
    | nil => rfl
    | cons req rest =>
      have hnone := h .slowTake trivial
      simp [State.step, hheld, hq] at hnone
  simp [State.slow, htasks, hheld, hqueue]

/-- At rest every id is on the wire. -/
theorem AtRest.ids (h : AtRest prost encodedLen s) (hlive : Live s) : s.ids = s.answered := by
  have hwriter : s.writer.ids = [] := by
    cases hw : s.writer with
    | writing frame => exact absurd hw (h.writer frame)
    | _ => rfl
  obtain ⟨hcommands, hqueue⟩ := h.commands hlive
  have hcommands : s.commands.ids = [] := by
    rcases hcommands with hc | hc <;> rw [hc] <;> rfl
  have hreader : s.reader.answers = [] ∧ s.reader.handed = [] := by
    rcases h.reader hlive with hr | hr <;> rw [hr] <;> exact ⟨rfl, rfl⟩
  simp [State.ids, State.front, State.waiting, hwriter, hcommands, hqueue, hreader, h.replies hlive,
    h.slow hlive]

end Rest

/-- What the connection promises: at most one answer for each request, and one for each once its tasks
are at rest; the command lane dispatches one request at a time in the order of arrival and answers in
that order; and no request is dispatched twice. -/
structure ExactlyOnce (prost : Prost)
    (encodedLen : Frame ρ → Nat) (s : State ρ) : Prop where
  atMostOnce : ∀ id ∈ s.seen, s.answered.count id ≤ 1
  answered : AtRest prost encodedLen s → ∀ id ∈ s.seen, s.answered.count id = 1
  oneAtATime : OneAtATime s.log
  dispatchOrder : (s.log.filterMap Entry.began?).Sublist s.arrived
  replyOrder : s.answered.filter (· ∈ s.arrived) <+: s.arrived
  dispatchedOnce : (s.log.filterMap Entry.began? ++ s.slowBegan).Nodup

theorem began_sublist_taken (log : List Entry) :
    (log.filterMap Entry.began?).Sublist (log.filterMap Entry.taken?) := by
  induction log with
  | nil => exact .slnil
  | cons entry rest ih =>
    cases entry with
    | refused id => exact ih.cons id
    | began id => exact ih.cons_cons id
    | ended id => exact ih

theorem Inv.exactlyOnce {s : State ρ} (hlive : Live s) (h : Inv s) :
    ExactlyOnce prost encodedLen s := by
  have hbegan : (s.log.filterMap Entry.began?).Sublist s.arrived := by
    rw [h.arrived]
    exact (began_sublist_taken s.log).trans (List.sublist_append_left ..)
  have hcount : ∀ id ∈ s.seen, s.ids.count id = 1 := by
    intro id hid
    rw [h.count id fun hz => h.zero (hz ▸ hid)]
    exact List.count_eq_one_of_mem h.seen hid
  refine ⟨?_, ?_, ?_, hbegan, ?_, ?_⟩
  · intro id hid
    have hone := hcount id hid
    simp only [State.ids, State.front, List.count_append] at hone
    omega
  · intro hrest id hid
    rw [← hrest.ids hlive]
    exact hcount id hid
  · have hlog := h.log
    unfold LogOk at hlog
    split at hlog
    · next req _ =>
      obtain ⟨before, hbefore, heq⟩ := hlog
      exact .inr ⟨before, req.id, hbefore, heq⟩
    · exact .inl hlog
  · have horder := h.order
    rw [State.front, List.filter_append] at horder
    refine List.IsPrefix.trans ⟨_, horder⟩ ?_
    conv_rhs => rw [h.arrived]
    exact List.prefix_append ..
  · refine List.nodup_append.mpr ⟨hbegan.nodup (h.arrivedSeen.nodup h.seen), h.slowBegan, ?_⟩
    rintro id hid _ hslow rfl
    exact (h.slowBeganSeen id hslow).2 (hbegan.subset hid)

/-- In every run of a connection whose peer keeps reading and whose host does not fail, in which no
handler of the slow lane panics and the end of the connection leaves no reply unwritten, every request
is answered exactly once. -/
theorem answered_exactly_once (hfit : ∀ id len, encodedLen
      (errorFrame id "response_too_large" (frameTooLarge len)) ≤ maxFrameLen)
    {trace : List (Event ρ)} {s : State ρ}
    (hrun : (machine prost encodedLen).Run (Kept prost) trace s) :
    ExactlyOnce prost encodedLen s := by
  obtain ⟨hlive, hinv⟩ := inv_of_run hfit hrun
  exact hinv.exactlyOnce hlive

/-- The protobuf bytes of a `LoadTicks` and of a `PlaceOrder` without fields, of a request without a
body, and of two that do not decode, with an id and without. -/
def loadTicksBytes : Bytes := [8, 1, 106, 0]

def placeOrderBytes : Bytes := [8, 2, 146, 1, 0]

def noBodyBytes : Bytes := [8, 9]

def undecodableBytes : Bytes := [8, 7, 23, 1]

def unreadableBytes : Bytes := [23, 1]

/-- The decoders on these: the key of a request id is one byte, and the id another. -/
def prostSample : Prost where
  decode payload :=
    if payload = loadTicksBytes then .ok (1, some .loadTicks)
    else if payload = placeOrderBytes then .ok (2, some .placeOrder)
    else if payload = noBodyBytes then .ok (9, none)
    else .error "failed to decode Protobuf message: invalid wire type value: 7"
  decodeKey
    | 8 :: rest => some (1, .varint, rest)
    | _ => none
  decodeVarint
    | id :: rest => some (id.toUInt64, rest)
    | [] => none

/-- The encoded length of the replies to these; a `value n` stands for a reply of `n` bytes. -/
def encodedLenSample (frame : Frame Nat) : Nat :=
  match frame.body with
  | .value n => n
  | .event => 2
  | .error _ _ =>
    match frame.requestId.toNat with
    | 1 => 73
    | 2 => 61
    | 7 => 102
    | _ => 43

/-- A load whose reply is too large for a frame, an order whose handler panics, and two bad requests;
then the client closes its side. -/
def mixedRequests : List (Event Nat) :=
  [.arrive loadTicksBytes, .arrive placeOrderBytes, .readerHand, .arrive undecodableBytes,
    .readerReply, .arrive noBodyBytes, .readerReply, .slowTake, .slowSpawn, .slowStart 0, .command,
    .handled none, .commandReply, .slowHandled 0 (some (.value 20000000)), .slowReply 0, .writerTake,
    .written, .writerTake, .written, .writerTake, .written, .writerTake, .written, .readEnd, .command,
    .commandsDone, .abort]

theorem mixed_requests_answered : ∃ s,
    (machine prostSample encodedLenSample).Run (Kept prostSample) mixedRequests s ∧
    AtRest prostSample encodedLenSample s ∧ s.seen = [1, 2, 7, 9] ∧ s.answered = [7, 9, 2, 1] ∧
    ExactlyOnce prostSample encodedLenSample s := by
  have hexec : ∃ s,
      (machine prostSample encodedLenSample).exec (Kept prostSample) {} mixedRequests = some s ∧
      s.seen = [1, 2, 7, 9] ∧ s.answered = [7, 9, 2, 1] ∧ AtRest prostSample encodedLenSample s := by
    refine ⟨_, rfl, rfl, rfl, ?_⟩
    intro e he
    cases e <;> first | rfl | exact he.elim
  obtain ⟨s, hexec, hseen, hanswered, hrest⟩ := hexec
  have hrun : (machine prostSample encodedLenSample).Run (Kept prostSample) _ s :=
    Machine.run_of_exec rfl hexec
  have hfit : ∀ id len, encodedLenSample
      (errorFrame id "response_too_large" (frameTooLarge len)) ≤ maxFrameLen := by
    intro id len
    simp only [encodedLenSample, errorFrame, maxFrameLen]
    split <;> omega
  exact ⟨s, hrun, hrest, hseen, hanswered, answered_exactly_once hfit hrun⟩

/-- The handler of a load panics. -/
def slowPanic : List (Event Nat) :=
  [.arrive loadTicksBytes, .slowTake, .slowSpawn, .slowStart 0, .slowHandled 0 none]

/-- A frame without a readable id ends the connection while a load runs for longer than the writer
waits. -/
def slowAtEnd : List (Event Nat) :=
  [.arrive loadTicksBytes, .slowTake, .slowSpawn, .slowStart 0, .arrive unreadableBytes, .command,
    .commandsDone, .abort, .slowHandled 0 (some (.value 10)), .slowReply 0]

/-- A slow request is read, and its handler ends, without an answer. -/
theorem slow_request_unanswered :
    (∃ s, (machine prostSample encodedLenSample).Run (Served prostSample) slowPanic s ∧
      ¬ ExactlyOnce prostSample encodedLenSample s) ∧
    (∃ s, (machine prostSample encodedLenSample).Run (Served prostSample) slowAtEnd s ∧
      ¬ ExactlyOnce prostSample encodedLenSample s) := by
  refine ⟨⟨_, Machine.run_of_exec rfl rfl, fun h => ?_⟩, ⟨_, Machine.run_of_exec rfl rfl, fun h => ?_⟩⟩
  · have hone := h.answered (by intro e he; cases e <;> first | rfl | exact he.elim) 1 (by decide)
    exact absurd hone (by decide)
  · have hone := h.answered (by intro e he; cases e <;> first | rfl | exact he.elim) 1 (by decide)
    exact absurd hone (by decide)

end RithmicNt.Gateway.Server
