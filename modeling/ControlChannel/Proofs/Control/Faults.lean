import ControlChannel.Proofs.Control.Outcomes
import ControlChannel.Proofs.Readiness.Entry

/-! # Faults of connections that were replaced

A refresh asks on the connection that was active when it was called. That connection may have been
replaced when the answer comes (`Entrance.entered_cases`), and a connection fault starts a session
all the same: only the slot counts. Main statement: `fault_starts_session`. -/

namespace ControlChannel

/-- A connection that has been in the slot is in it still, was asked to close or is closed. -/
theorem Entrance.entered_cases {port : UInt16} {h : List Transition} {k : Control}
    {ts : List Task} {c : ConnectionId} (e : Entrance port h k ts) (custody : Custody k ts)
    (hc : Entered h c) :
    c ∈ Link.ids k.active ∨ c ∈ k.fabric.closings ∨ k.fabric.isClosed c = true := by
  cases hclosed : k.fabric.isClosed c with
  | true => exact .inr (.inr rfl)
  | false =>
    rcases List.mem_append.mp (custody.hands.account c hclosed) with hin | hheld
    · exact .inl hin
    · -- a bring-up has no connection that was in the slot
      have hused : c ∉ Task.used ts := fun hu => e.apart c hu hc
      exact .inr (.inl ((custody.discards c hheld).resolve_left hused))

namespace System

variable {settings : Settings} {store : Store} {balancing : Balancing}
variable {h : List Transition} {s t u : System} {a : Action} {job : Job} {c : ConnectionId}

/-- A refresh that met a connection fault is over, asked for a session and reports it. -/
theorem apply_ofFault (s : System) (id : JobId) :
    s.apply id (.ofFault s.control) =
      (s.retire id).trigger.2.answer id (.refreshed (.ok .reconnecting)) := by
  have hsame : (s.retire id).control = s.control := rfl
  unfold Turn.ofFault trigger
  rw [hsame]
  cases s.control.trigger with
  | none => rfl
  | some x => rfl

/-- A connection fault starts a session if the slot is free. -/
theorem startsSession_of_breaks (hs : s.Proper) (hj : job ∈ s.jobs) (h : s.step a = some u)
    (hb : a.Breaks job) (free : s.control.slot.isActive = false)
    (live : s.control.isShutDown = false) : StartsSession (s.retire job.id) u := by
  obtain ⟨rfl, _⟩ := fault_of_breaks hs hj h hb
  rw [apply_ofFault]
  obtain ⟨_, hstarts⟩ := trigger_free (s := s.retire job.id) free live
  exact ⟨hstarts.free, hstarts.holder, hstarts.jobs⟩

/-- A session that a refresh in progress has started was started by a connection fault. -/
theorem breaks_of_startsSession (hs : s.Proper) (o : Occupied s.control s.tasks)
    (hj : job ∈ s.jobs) (hasks : job.task.asks ≠ []) (h : s.step a = some u)
    (starts : StartsSession (s.retire job.id) u) :
    a.Breaks job ∧ s.control.slot.isActive = false ∧ s.control.isShutDown = false := by
  have gone : ∀ j ∈ u.jobs, j.id ≠ job.id := by
    intro j hm
    rw [starts.jobs] at hm
    rcases List.mem_append.mp hm with hm | hm
    · simpa using (List.mem_filter.mp hm).2
    · rw [List.mem_singleton.mp hm]
      exact (Nat.ne_of_lt (hs.order.below job hj)).symm
  have free : s.control.slot.isActive = false := starts.free
  have taken : u.control.slot.isActive = true := by
    rw [Slot.isActive, starts.holder]; rfl
  obtain ⟨signal, turn, hr, hears, ha, rfl⟩ := turn_of_gone hs hj h gone
  rw [control_apply] at taken
  rcases Task.refresh_cases hasks hr hears with ⟨hb, rfl⟩ | ⟨_, spares⟩
  · refine ⟨?_, free, (ofFault_active o).mp taken⟩
    rcases ha with ha | ⟨_, rfl⟩
    · exact ⟨signal, ha, hb⟩
    · obtain ⟨_, _, _, hsignal, _⟩ := hb
      cases hsignal
  · rw [spares.slot, free] at taken
    cases taken

/-- Until a shutdown a connection is active while a refresh is in progress: the one on which it
asks, unless that one was replaced. -/
theorem active_of_asks (run : Run (initial settings store balancing) h t) (hj : job ∈ t.jobs)
    (hc : c ∈ job.task.asks) (live : t.control.isShutDown = false) :
    ∃ link, t.control.active = some link ∧
      (c = link.id ∨ c ∈ t.control.fabric.closings ∨ t.control.fabric.isClosed c = true) := by
  have he := entrance_of_run run
  have hentered : Entered h c := he.refreshes job.task (List.mem_map_of_mem hj) c hc
  have hcases := he.entered_cases (custody_of_reaches run.reaches) hentered
  obtain ⟨x, hx, hin⟩ := hentered
  have hsome : x.after.control.active.isSome = true := by
    cases hactive : x.after.control.active with
    | none => rw [hactive] at hin; cases hin
    | some link => rfl
  rcases filled_of_run (proper_initial settings store balancing) run x hx hsome with hshut | hfilled
  · rw [live] at hshut; cases hshut
  · obtain ⟨link, hlink⟩ := Option.isSome_iff_exists.mp hfilled
    refine ⟨link, hlink, hcases.imp_left fun hactive => ?_⟩
    rw [hlink] at hactive
    exact List.mem_singleton.mp hactive

/-- **A connection fault of a refresh starts a session whenever the slot is free**, be the
connection still the active one or not. Until a shutdown a connection is active, and the one on
which the refresh asks is this one, or was replaced and asked to close, or is closed; so the faults
of the active connection are the only ones to start a session exactly as far as no refresh fails
on a replaced connection while no session is running. -/
theorem fault_starts_session (settings : Settings) (store : Store) (balancing : Balancing)
    (run : Run (initial settings store balancing) h t) (hj : job ∈ t.jobs)
    (hc : c ∈ job.task.asks) (hstep : t.step a = some u) :
    (StartsSession (t.retire job.id) u ↔
      a.Breaks job ∧ t.control.slot.isActive = false ∧ t.control.isShutDown = false) ∧
    ((StartsSession (t.retire job.id) u → c ∈ Link.ids t.control.active) ↔
      (a.Breaks job → c ∈ Link.ids t.control.active ∨ t.control.slot.isActive = true ∨
        t.control.isShutDown = true)) ∧
    (t.control.isShutDown = false → ∃ link, t.control.active = some link ∧
      (c = link.id ∨ c ∈ t.control.fabric.closings ∨ t.control.fabric.isClosed c = true)) := by
  have hp := (proper_initial settings store balancing).reaches run.reaches
  have o := occupied_of_reaches run.reaches
  have hasks : job.task.asks ≠ [] := List.ne_nil_of_mem hc
  have hiff : StartsSession (t.retire job.id) u ↔
      a.Breaks job ∧ t.control.slot.isActive = false ∧ t.control.isShutDown = false :=
    ⟨breaks_of_startsSession hp o hj hasks hstep,
      fun ⟨hb, free, live⟩ => startsSession_of_breaks hp hj hstep hb free live⟩
  refine ⟨hiff, ⟨fun honly hb => ?_, fun honly hstarts => ?_⟩, active_of_asks run hj hc⟩
  · cases hactive : t.control.slot.isActive with
    | true => exact .inr (.inl rfl)
    | false =>
      cases hshut : t.control.isShutDown with
      | true => exact .inr (.inr rfl)
      | false => exact .inl (honly (hiff.mpr ⟨hb, hactive, hshut⟩))
  · obtain ⟨hb, free, live⟩ := hiff.mp hstarts
    rcases honly hb with hin | hactive | hshut
    · exact hin
    · rw [free] at hactive; cases hactive
    · rw [live] at hshut; cases hshut

/-- The connection on which a refresh asks breaks while it is the active one. -/
theorem fault_starts_session_active : ∃ h t job u, Run lone h t ∧ job ∈ t.jobs ∧
    t.step (.signal job.id broken) = some u ∧ StartsSession (t.retire job.id) u ∧
    0 ∈ Link.ids t.control.active := by
  have hrun : ((lone.run refreshing).any fun t =>
      (t.control.slot.isActive = false ∧ t.control.isShutDown = false) ∧
        0 ∈ Link.ids t.control.active ∧ ((t.job? 1).any fun job =>
          decide (0 ∈ job.task.asks) && (t.step (.signal job.id broken)).isSome) = true) =
            true := by
    decide +kernel
  obtain ⟨t, r, hslot, hin, hjob⟩ := exists_reaches hrun
  obtain ⟨job, u, hm, hasks, hu⟩ := exists_broken hjob
  obtain ⟨h, run⟩ := Run.of_reaches r
  have hb := breaks_broken (List.ne_nil_of_mem hasks)
  have hstarts := (fault_starts_session _ _ _ run hm hasks hu).1.mpr ⟨hb, hslot⟩
  exact ⟨h, t, job, u, run, hm, hu, hstarts, hin⟩

/-- A refresh fails on a connection that has been replaced and closed: the healthy one is given up
for it. -/
theorem replaced_starts_session : ∃ t job u, Reaches lone t ∧ job ∈ t.jobs ∧ job.task.asks = [0] ∧
    t.step (.signal job.id broken) = some u ∧ StartsSession (t.retire job.id) u ∧
    t.control.fabric.isClosed 0 = true ∧ Link.ids t.control.active = [1] ∧
    t.control.fabric.isClosed 1 = false := by
  have hrun : ((lone.run (refreshing ++ .trigger :: bringsUp 2 ++ [.signal 2 .closed])).any fun t =>
        (t.control.slot.isActive = false ∧ t.control.isShutDown = false) ∧
        (t.control.fabric.isClosed 0 = true ∧ Link.ids t.control.active = [1] ∧
          t.control.fabric.isClosed 1 = false) ∧ ((t.job? 1).any fun job =>
            decide (job.task.asks = [0]) && (t.step (.signal job.id broken)).isSome) = true) =
              true := by
    decide +kernel
  obtain ⟨t, r, ⟨free, live⟩, hconnections, hjob⟩ := exists_reaches hrun
  obtain ⟨job, u, hm, hasks, hu⟩ := exists_broken hjob
  have hb : Action.Breaks (.signal job.id broken) job := breaks_broken (by simp [hasks])
  have hp := (proper_initial _ _ _).reaches r
  exact ⟨t, job, u, r, hm, hasks, hu, startsSession_of_breaks hp hm hu hb free live, hconnections⟩

end System

end ControlChannel
