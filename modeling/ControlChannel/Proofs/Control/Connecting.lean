import ControlChannel.Proofs.Control.Origins
import ControlChannel.Proofs.Control.Phases

/-! # What a call to connect reports

A call to connect reports that it is connected when its round has brought a connection up
(`Transition.BringsUp`), and then in any case. The connection is installed in that very step,
unless a shutdown came before it (`Transition.Installs`); in that case it is closed, has never been
active, and the call reports the same. Main statement: `connect_reports`. -/

namespace ControlChannel

/-- The round of an attempt ends with a connection that is up. -/
def Attempt.BringsUp (k : Control) (a : Attempt) (signal : Signal) (link : Link) : Prop :=
  ∃ r l, a = .round r ∧ r.resume k signal = some (l, .done (.ok (.ready link)))

/-- What a call to connect says of a connection that is up. -/
def CallResult.ready : CallResult := .connected (.ok (.ready ()))

def CallResult.isReady : CallResult → Bool
  | .connected (.ok (.ready _)) => true
  | _ => false

theorem CallResult.eq_ready {r : CallResult} (h : r.isReady = true) : r = .ready := by
  unfold isReady at h
  split at h
  · rfl
  · cases h

namespace Turn

/-- What a turn of a call to connect comes to. -/
inductive Pursues (k : Control) : Attempt → Signal → Turn → Prop where
  | searches {a b : Attempt} {signal : Signal} {turn : Turn} (seeking : a.isInstalling = false)
      (going : b.isInstalling = false) (down : ∀ link, ¬ a.BringsUp k signal link)
      (task : turn.task = some (.connect b)) (result : turn.result = none) :
      Pursues k a signal turn
  | ends {a : Attempt} {signal : Signal} {turn : Turn} {result : Except Error (Awaited Unit)}
      (seeking : a.isInstalling = false) (down : ∀ link, ¬ a.BringsUp k signal link)
      (task : turn.task = none) (told : turn.result = some (.connected result))
      (failed : result ≠ .ok (.ready ())) (cancelled : result = .ok .cancelled →
        k.isShutDown = true) : Pursues k a signal turn
  | finds {r : Round} {signal : Signal} {l : Control} {link : Link}
      (up : r.resume k signal = some (l, .done (.ok (.ready link)))) :
      Pursues k (.round r) signal (ofConnect (Attempt.afterInstall (Install.start l link)))
  | settles (i : Install) : Pursues k (.installing i) .closed
      (answer { k with fabric := k.fabric.lose i.closing.id } .ready)

variable {k : Control} {a : Attempt} {signal : Signal}

theorem Pursues.of_installing {i : Install} {turn : Turn}
    (h : Pursues k (.installing i) signal turn) :
    turn = answer { k with fabric := k.fabric.lose i.closing.id } .ready := by
  cases h with
  | searches seeking _ _ _ _ => cases seeking
  | ends seeking _ _ _ _ _ => cases seeking
  | settles i => rfl

theorem Pursues.of_bringsUp {turn : Turn} {link : Link} (h : Pursues k a signal turn)
    (up : a.BringsUp k signal link) :
    ∃ r l, a = .round r ∧ r.resume k signal = some (l, .done (.ok (.ready link))) ∧
      turn = ofConnect (Attempt.afterInstall (Install.start l link)) := by
  cases h with
  | searches _ _ down _ _ => exact absurd up (down link)
  | ends _ down _ _ _ _ => exact absurd up (down link)
  | settles i =>
    obtain ⟨_, _, ha, _⟩ := up
    cases ha
  | @finds r _ l found hfound =>
    obtain ⟨_, l', ha, hup⟩ := up
    cases ha
    obtain ⟨rfl, rfl⟩ : l = l' ∧ found = link := by
      simpa using hfound.symm.trans hup
    exact ⟨r, l, rfl, hup, rfl⟩

/-- The attempt has brought no connection up. -/
theorem pursues_searching {o : Control × Progress Attempt Attempt.Result}
    (seeking : a.isInstalling = false) (down : ∀ link, ¬ a.BringsUp k signal link)
    (search : Attempt.Searching o.2) (givenUp : Attempt.GivenUp o.2 → k.isShutDown = true) :
    Pursues k a signal (ofConnect o) := by
  obtain ⟨l, p⟩ := o
  cases p with
  | running b =>
    refine .searches seeking ?_ down rfl rfl
    cases b with
    | fresh | round r => rfl
    | installing i => exact search.elim
  | done result =>
    rcases result with e | (kept | _)
    · exact .ends seeking down rfl rfl (fun h => by cases h) fun h => by cases h
    · exact search.elim
    · exact .ends seeking down rfl rfl (fun h => by cases h) fun _ => givenUp trivial

/-- The call goes on with its installation, or is over with it. -/
theorem ofConnect_afterInstall (x : Control × Progress Install Bool) :
    (ofConnect (Attempt.afterInstall x)).control = x.1 ∧
      ((∃ i, x.2 = .running i ∧
          (ofConnect (Attempt.afterInstall x)).task = some (.connect (.installing i)) ∧
          (ofConnect (Attempt.afterInstall x)).result = none) ∨
        ((ofConnect (Attempt.afterInstall x)).task = none ∧
          (ofConnect (Attempt.afterInstall x)).result = some .ready)) := by
  obtain ⟨k, p⟩ := x
  cases p with
  | running i => exact ⟨rfl, .inl ⟨i, rfl, rfl, rfl⟩⟩
  | done kept => exact ⟨rfl, .inr ⟨rfl, rfl⟩⟩

end Turn

namespace Task

variable {k : Control} {a : Attempt} {signal : Signal} {turn : Turn}

theorem pursues_resume (h : (Task.connect a).resume k signal = some turn)
    (hears : (Task.connect a).Hears k signal)
    (calm : (Task.connect a).GivenUp → k.isShutDown = true) : Turn.Pursues k a signal turn := by
  cases a with
  | fresh =>
    cases signal with
    | go =>
      cases h
      have hlive : k.connecting.isShutDown = k.isShutDown :=
        isShutDown_readied k (.connect .fresh)
      have adv := Attempt.advances_afterRound (a := .fresh) (Round.advances_start k.connecting)
      refine Turn.pursues_searching rfl ?_ (Attempt.searching_start _) fun hg => ?_
      · rintro link ⟨r, l, hr, _⟩
        cases hr
      · exact hlive ▸ adv.givenUp hg
    | _ => cases h
  | round r =>
    obtain ⟨o, ho, rfl⟩ := Option.map_eq_some_iff.mp h
    obtain ⟨⟨l, p⟩, hx, rfl⟩ := Option.map_eq_some_iff.mp ho
    have adv := Attempt.advances_resume (a := .round r) ho
      (fun hc => isShutDown_of_hears rfl (fun h => by cases h) (hc ▸ hears))
      fun hg => calm ⟨_, rfl, hg⟩
    have hdown : (∀ link, p ≠ .done (.ok (.ready link))) →
        ∀ link, ¬ Attempt.BringsUp k (.round r) signal link := by
      rintro hp link ⟨r', l', hr, hup⟩
      cases hr
      exact hp link (congrArg Prod.snd (Option.some.inj (hx.symm.trans hup)))
    cases p with
    | running r' =>
      exact Turn.pursues_searching rfl (hdown fun _ h => by cases h) trivial adv.givenUp
    | done result =>
      rcases result with e | (link | _)
      · exact Turn.pursues_searching rfl (hdown fun _ h => by cases h) trivial adv.givenUp
      · exact .finds hx
      · exact Turn.pursues_searching rfl (hdown fun _ h => by cases h) trivial adv.givenUp
  | installing i =>
    obtain ⟨o, ho, rfl⟩ := Option.map_eq_some_iff.mp h
    obtain ⟨x, hx, rfl⟩ := Option.map_eq_some_iff.mp ho
    cases signal with
    | closed => cases hx; exact .settles i
    | _ => cases hx

end Task

/-- The turn of a call to connect. -/
theorem Transition.Turns.pursues {x : Transition} {job : Job} {signal : Signal} {turn : Turn}
    {a : Attempt} (h : x.Turns job signal turn) (hp : x.before.Proper)
    (ha : job.task = .connect a) : Turn.Pursues x.before.control a signal turn :=
  Task.pursues_resume (ha ▸ h.resume) (ha ▸ h.hears)
    (ha ▸ hp.calm _ (List.mem_map_of_mem h.mem))

/-! ## Connections that nobody holds -/

/-- A connection that was opened and that nobody holds any more. -/
structure Gone (c : ConnectionId) (k : Control) (ts : List Task) : Prop where
  known : c < k.fabric.connections.size
  unheld : c ∉ Link.ids k.active ++ Task.held ts

/-- **Nobody gets hold of a connection again.** -/
theorem Gone.invariant (c : ConnectionId) : System.Invariant (Gone c) where
  perm p g := ⟨g.known, fun hc => g.unheld (((Task.held_perm p).append_left _).mem_iff.mpr hc)⟩
  outside u g := ⟨u.size ▸ g.known, g.unheld⟩
  called _ g := ⟨g.known, g.unheld⟩
  turn {k task turn ts} s g := by
    have p := s.custody.frame (Task.held ts)
    rw [List.append_assoc, List.append_assoc, ← Task.held_cons, ← Task.held_append] at p
    refine ⟨Nat.lt_of_lt_of_le g.known p.grows, fun hc => ?_⟩
    rcases p.known c hc with hin | ⟨hnew, _⟩
    · exact g.unheld hin
    · exact absurd g.known (Nat.not_lt.mpr hnew)

/-- What nobody holds is closed. -/
theorem Custody.isClosed {k : Control} {ts : List Task} (h : Custody k ts) {c : ConnectionId}
    (g : Gone c k ts) : k.fabric.isClosed c = true := by
  cases ho : k.fabric.isClosed c with
  | true => rfl
  | false => exact absurd (h.hands.account c ho) g.unheld

namespace System

/-! ## From the connection to the report -/

/-- A call has a connection up: it installs it, or closes the one that came too late, and then
reports that it is connected. -/
def Concludes (id : JobId) (late : Option Link) (s : System) : Prop :=
  (∃ job ∈ s.jobs, job.id = id ∧
      ∃ i, job.task = .connect (.installing i) ∧ ∀ link ∈ late, i.closing = link) ∨
    (s.result? id = some .ready ∧ ∀ link ∈ late, Gone link.id s.control s.tasks)

variable {settings : Settings} {store : Store} {balancing : Balancing}
variable {s t u : System} {a : Action} {job : Job} {turn : Turn} {h : List Transition}
variable {id : JobId} {late : Option Link} {x : Transition}

/-- The connection that a job closes is gone when the job is over. -/
theorem gone_settled (hs : s.Proper) (c : Custody s.control s.tasks) (hj : job ∈ s.jobs)
    {i : Install} (hi : job.task = .connect (.installing i)) :
    let turn := Turn.answer { s.control with fabric := s.control.fabric.lose i.closing.id }
      .ready
    Gone i.closing.id (s.apply job.id turn).control (s.apply job.id turn).tasks := by
  intro turn
  obtain ⟨others, hp, happly⟩ := tasks_apply hs.order hj
  have hands := (c.perm hp).hands
  rw [Task.held_cons, hi] at hands
  have hin : i.closing.id ∈ Link.ids s.control.active ++ ([i.closing.id] ++ Task.held others) :=
    List.mem_append_right _ List.mem_cons_self
  rw [control_apply]
  refine (Gone.invariant _).perm (happly turn).symm ⟨?_, fun hc => ?_⟩
  · have hsize : turn.control.fabric.connections.size = s.control.fabric.connections.size :=
      Array.size_modify
    rw [hsize]
    exact hands.below _ hin
  · obtain ⟨_, hrest, hactive⟩ := List.nodup_append.mp hands.nodup
    rcases List.mem_append.mp hc with hc | hc
    · exact hactive _ hc _ List.mem_cons_self rfl
    · exact (List.nodup_cons.mp hrest).1 hc

theorem concludes_moves (hs : s.Proper) (c : Custody s.control s.tasks) (m : Moves s a u)
    (h : Concludes id late s) : Concludes id late u := by
  rcases h with ⟨job, hj, hid, i, hi, hlate⟩ | ⟨hr, hlate⟩
  · rcases stays_of_moves hs m hj with ⟨j, hm, hj', ht⟩ | ⟨signal, turn, hturn⟩
    · exact .inl ⟨j, hm, hj'.trans hid, i, ht.trans hi, hlate⟩
    · have hanswer : turn = Turn.answer
          { s.control with fabric := s.control.fabric.lose i.closing.id } .ready :=
        (hturn.pursues hs hi).of_installing
      obtain rfl : u = s.apply job.id turn := hturn.after
      subst hanswer
      refine .inr ⟨?_, fun link hl => hlate link hl ▸ gone_settled hs c hj hi⟩
      rw [← hid, result?_apply hs hj]
      rfl
  · exact .inr ⟨result?_moves hs m hr, fun link hl => (Gone.invariant _).moves hs m (hlate link hl)⟩

theorem concludes_reaches (r : Reaches (initial settings store balancing) s) (r' : Reaches s u)
    (h : Concludes id late s) : Concludes id late u := by
  induction r' with
  | refl => exact h
  | step a r' e ih =>
    have hp := (proper_initial settings store balancing).reaches (r.trans r')
    exact concludes_moves hp (custody_of_reaches (r.trans r')) (moves_of_step e) ih

end System

/-! ## Bringing a connection up -/

namespace Transition

/-- The round of a call to connect ends with a connection that is up. -/
def BringsUp (x : Transition) (id : JobId) (link : Link) : Prop :=
  ∃ job signal turn a, x.Turns job signal turn ∧ job.id = id ∧ job.task = .connect a ∧
    a.BringsUp x.before.control signal link

/-- The connection becomes the active one in this step, which is announced. -/
def Installs (x : Transition) (link : Link) : Prop :=
  x.after.control.active = some link ∧
    x.after.control.announced = link.address :: x.before.control.announced

end Transition

namespace System

variable {settings : Settings} {store : Store} {balancing : Balancing}
variable {s t u : System} {a : Action} {job : Job} {turn : Turn} {h : List Transition}
variable {id : JobId} {late : Option Link} {x y : Transition} {link : Link} {signal : Signal}

/-- What is left of a call whose connection is up. -/
theorem concludes_install (hs : s.Proper) (hj : job ∈ s.jobs) {p : Control × Progress Install Bool}
    (hlate : ∀ link ∈ late, ∃ i, p.2 = .running i ∧ i.closing = link) :
    Concludes job.id late (s.apply job.id (Turn.ofConnect (Attempt.afterInstall p))) := by
  obtain ⟨k, p⟩ := p
  cases p with
  | running i =>
    refine .inl ⟨_, mem_apply_of_task hs.order hj rfl, rfl, i, rfl, fun link hl => ?_⟩
    obtain ⟨_, ⟨⟩, hc⟩ := hlate link hl
    exact hc
  | done kept =>
    refine .inr ⟨?_, fun link hl => ?_⟩
    · rw [result?_apply hs hj]
      rfl
    · obtain ⟨_, ⟨⟩, _⟩ := hlate link hl

/-- What the round of a call changes on its way to a connection. -/
theorem keeps_of_bringsUp (hs : x.before.Proper) (hx : x.BringsUp id link) :
    ∃ job l, job ∈ x.before.jobs ∧ job.id = id ∧ x.before.control.Keeps l ∧
      l.announced = x.before.control.announced ∧
      x.after = x.before.apply id (Turn.ofConnect (Attempt.afterInstall (Install.start l link))) ∧
      (link.id ∈ Link.ids job.task.uses? ∨
        x.before.control.fabric.connections.size ≤ link.id) := by
  obtain ⟨job, signal, turn, a, hturn, rfl, ha, hup⟩ := hx
  obtain ⟨r, l, rfl, hr, rfl⟩ := (hturn.pursues hs ha).of_bringsUp hup
  have hattempt : job.task.attempt? = some (.round r) := by rw [ha]; rfl
  have hcalm := hs.calm _ (List.mem_map_of_mem hturn.mem)
  have adv := Round.advances_resume hr
    (fun hc => Task.isShutDown_of_hears hattempt (fun h => by cases h) (hc ▸ hturn.hears))
    fun hg => hcalm ⟨_, hattempt, hg⟩
  obtain ⟨es, he, hes⟩ := adv.events
  refine ⟨job, l, hturn.mem, rfl, adv.keeps, ?_, hturn.after, ?_⟩
  · exact Control.announced_eq he fun a ha => by cases hes _ ha
  · rw [Task.uses?_of_attempt hattempt]
    exact adv.uses _ (List.mem_singleton.mpr rfl)

/-- A connection that is up before a shutdown is installed. -/
theorem installs_of_bringsUp (hs : x.before.Proper) (hx : x.BringsUp id link)
    (live : x.before.control.isShutDown = false) :
    x.Installs link ∧ Concludes id none x.after := by
  obtain ⟨job, l, hj, rfl, hk, hannounced, hafter, _⟩ := keeps_of_bringsUp hs hx
  have hlive : l.isShutDown = false := hk.isShutDown.trans live
  obtain ⟨hcontrol, _⟩ := Turn.ofConnect_afterInstall (Install.start l link)
  rw [Transition.Installs, hafter, control_apply, hcontrol]
  refine ⟨⟨?_, ?_⟩, concludes_install hs hj fun _ h => by cases h⟩
  · rw [Install.active_start, hlive]
    rfl
  · rw [Install.announced_start link hlive, hannounced]

/-- A connection that is up after a shutdown is closed instead. -/
theorem discards_of_bringsUp (hs : x.before.Proper) (c : Custody x.before.control x.before.tasks)
    (hx : x.BringsUp id link) (shut : x.before.control.isShutDown = true) :
    ¬ x.Installs link ∧ Concludes id (some link) x.after := by
  obtain ⟨job, l, hj, rfl, hk, _, hafter, _⟩ := keeps_of_bringsUp hs hx
  have hshut : l.isShutDown = true := hk.isShutDown.trans shut
  have hstart : Install.start l link = Install.close l link false := if_pos hshut
  obtain ⟨hcontrol, _⟩ := Turn.ofConnect_afterInstall (Install.start l link)
  rw [Transition.Installs, hafter, control_apply, hcontrol]
  refine ⟨fun ⟨hactive, _⟩ => ?_, concludes_install hs hj fun other hl => ?_⟩
  · rw [Install.active_start, hshut, if_pos rfl, hk.active, c.emptied shut] at hactive
    cases hactive
  · cases hl
    exact ⟨⟨link, false⟩, congrArg Prod.snd hstart, rfl⟩

/-- A call whose connection is up does not bring one up again. -/
theorem not_concludes_of_bringsUp (hs : x.before.Proper) (hx : x.BringsUp id link) :
    ¬ Concludes id late x.before := by
  obtain ⟨job, signal, turn, a, hturn, rfl, ha, r, l, rfl, _⟩ := hx
  rintro (⟨j, hj, hid, i, hi, _⟩ | ⟨hr, _⟩)
  · obtain rfl := hs.order.eq_of_id hj hturn.mem hid
    cases hi.symm.trans ha
  · rw [result?_of_mem hs hturn.mem] at hr
    cases hr

/-- A call that has begun its attempt, or has not. -/
theorem turns_connecting (hturn : x.Turns job signal turn) (hc : job.task.isConnecting = true) :
    (job.task = .called .connect ∧ turn = Turn.begin x.before.control .connect) ∨
      ∃ a, job.task = .connect a := by
  have hr := hturn.resume
  cases ht : job.task with
  | connect a => exact .inr ⟨a, rfl⟩
  | called call =>
    rw [ht] at hc hr
    cases call with
    | connect =>
      cases signal with
      | go => exact .inl ⟨rfl, (Option.some.inj hr).symm⟩
      | _ => cases hr
    | _ => cases hc
  | _ => rw [ht] at hc; cases hc

/-- Only a call that has just brought a connection up comes to its installation. -/
theorem bringsUp_of_turns (hs : x.before.Proper) (hturn : x.Turns job signal turn) {i : Install}
    (ht : turn.task = some (.connect (.installing i))) : ∃ link, x.BringsUp job.id link := by
  rcases turns_connecting hturn ((Task.fits_resume hturn.resume).going _ ht rfl) with
    ⟨_, rfl⟩ | ⟨a, ha⟩
  · simp only [Turn.begin] at ht
    repeat' split at ht
    all_goals cases ht
  · cases hturn.pursues hs ha with
    | searches _ going _ task _ =>
      cases task.symm.trans ht
      cases going
    | ends _ _ task _ _ _ => cases task.symm.trans ht
    | settles i => cases ht
    | @finds r _ l link hup => exact ⟨link, job, signal, _, _, hturn, rfl, ha, r, l, rfl, hup⟩

/-- What a call to connect says in its last turn. -/
theorem told_of_turns (hs : x.before.Proper) (hturn : x.Turns job signal turn)
    {result : Except Error (Awaited Unit)} (hr : turn.result = some (.connected result)) :
    (result = .ok (.ready ()) ∧
      ((∃ link, x.BringsUp job.id link) ∨ ∃ i, job.task = .connect (.installing i))) ∨
    (result ≠ .ok (.ready ()) ∧
      (result = .ok .cancelled → x.before.control.isShutDown = true)) := by
  rcases turns_connecting hturn ((Task.fits_resume hturn.resume).told _ hr) with
    ⟨_, rfl⟩ | ⟨a, ha⟩
  · simp only [Turn.begin] at hr
    repeat' split at hr
    all_goals cases hr
    all_goals exact .inr ⟨fun h => (by cases h), fun h => by cases h⟩
  · cases hturn.pursues hs ha with
    | searches _ _ _ _ none => cases none.symm.trans hr
    | ends _ _ _ told failed cancelled =>
      cases told.symm.trans hr
      exact .inr ⟨failed, cancelled⟩
    | settles i =>
      cases hr
      exact .inl ⟨rfl, .inr ⟨i, ha⟩⟩
    | @finds r _ l link hup =>
      obtain ⟨_, hcases⟩ := Turn.ofConnect_afterInstall (Install.start l link)
      have hup' : x.BringsUp job.id link := ⟨job, signal, _, _, hturn, rfl, ha, r, l, rfl, hup⟩
      rcases hcases with ⟨i, _, _, hnone⟩ | ⟨_, hresult⟩
      · cases hnone.symm.trans hr
      · cases hresult.symm.trans hr
        exact .inl ⟨rfl, .inl ⟨link, hup'⟩⟩

/-! ## Runs -/

/-- What a job closes at the end of its call, it has brought up. -/
theorem bringsUp_of_installing (run : Run (initial settings store balancing) h t) {job : Job}
    (hj : job ∈ t.jobs) {i : Install} (hi : job.task = .connect (.installing i)) :
    ∃ x ∈ h, ∃ link, x.BringsUp job.id link := by
  induction run generalizing job with
  | nil => cases hj
  | @snoc h t u action run step ih =>
    have hp := (proper_initial settings store balancing).reaches run.reaches
    rcases origin_of_moves hp (moves_of_step step) hj with
      ⟨j, hm, hid, ht⟩ | ⟨j, signal, turn, hturn, hid, ht⟩ | ⟨_, ⟨call, hc⟩ | hh⟩
    · obtain ⟨x, hx, hup⟩ := ih hm (ht.trans hi)
      exact ⟨x, List.mem_append_left _ hx, hid ▸ hup⟩
    · refine ⟨_, List.mem_append_right _ (List.mem_singleton.mpr rfl), ?_⟩
      exact hid ▸ bringsUp_of_turns hp hturn (ht.trans (congrArg some hi))
    · cases hc.symm.trans hi
    · rw [hi] at hh
      cases hh

/-- Once its connection is up a call is about to report that, whether a shutdown came before it or
not. -/
theorem concludes_of_bringsUp (hs : x.before.Proper) (c : Custody x.before.control x.before.tasks)
    (hx : x.BringsUp id link) : ∃ late, Concludes id late x.after := by
  cases hshut : x.before.control.isShutDown with
  | false => exact ⟨none, (installs_of_bringsUp hs hx hshut).2⟩
  | true => exact ⟨some link, (discards_of_bringsUp hs c hx hshut).2⟩

/-- One step brings up one connection. -/
theorem bringsUp_unique (hs : x.before.Proper) {link' : Link} (hx : x.BringsUp id link)
    (hx' : x.BringsUp id link') : link' = link := by
  obtain ⟨job, signal, turn, a, hturn, _, ha, r, l, rfl, hr⟩ := hx
  obtain ⟨job', signal', turn', a', hturn', _, ha', r', l', rfl, hr'⟩ := hx'
  obtain ⟨rfl, rfl, _⟩ := hturn.unique hs hturn'
  cases ha'.symm.trans ha
  cases hr'.symm.trans hr
  rfl

/-- A connection that was up after a shutdown has never been active. -/
theorem not_entered_of_bringsUp (run : Run (initial settings store balancing) h t) (hm : x ∈ h)
    (hx : x.BringsUp id link) (shut : x.before.control.isShutDown = true) :
    ¬ Entered h link.id := by
  obtain ⟨g, _, hg, hall⟩ := run.upto hm
  have hs := (proper_initial settings store balancing).reaches hg.reaches
  have e := entrance_of_run hg
  obtain ⟨job, _, hj, _, _, _, _, huses⟩ := keeps_of_bringsUp hs hx
  have hnever : ¬ Entered g link.id := by
    rcases huses with huses | hnew
    · exact e.apart _ (List.mem_flatMap.mpr ⟨job.task, List.mem_map_of_mem hj, huses⟩)
    · exact fun hin => absurd (e.known _ hin) (Nat.not_lt.mpr hnew)
  rintro ⟨y, hy, hin⟩
  rcases hall y hy with hy | hlater
  · exact hnever ⟨y, hy, hin⟩
  · have hshut := (rests_reaches hs shut hlater).shutDown
    rw [(custody_of_reaches (hg.reaches.trans hlater)).emptied hshut] at hin
    cases hin

/-- A call that has a connection up has reported it by the time it is over. -/
theorem reported_of_concludes (run : Run (initial settings store balancing) h t) (hx : x ∈ h)
    (hc : Concludes id late x.after) {result : CallResult} (hr : t.result? id = some result) :
    result = .ready ∧ ∀ link ∈ late, Gone link.id t.control t.tasks := by
  have hp := (proper_initial settings store balancing).reaches run.reaches
  have hafter := (run.reaches_before hx).step _ (run.step_of_mem hx)
  rcases concludes_reaches hafter (run.reaches_of_mem hx) hc with ⟨j, hj, rfl, _⟩ | ⟨hready, hlate⟩
  · rw [result?_of_mem hp hj] at hr
    cases hr
  · exact ⟨Option.some.inj (hr.symm.trans hready), hlate⟩

/-- No step that brings a connection up comes before another one of the same call. -/
theorem not_reaches_of_bringsUp (run : Run (initial settings store balancing) h t) (hx : x ∈ h)
    (hy : y ∈ h) {link' : Link} (hup : x.BringsUp id link) (hup' : y.BringsUp id link') :
    ¬ x.after.Reaches y.before := by
  intro hreach
  have h0 := proper_initial settings store balancing
  have hbefore := run.reaches_before hx
  obtain ⟨late, hc⟩ :=
    concludes_of_bringsUp (h0.reaches hbefore) (custody_of_reaches hbefore) hup
  have hthere := concludes_reaches (hbefore.step _ (run.step_of_mem hx)) hreach hc
  exact not_concludes_of_bringsUp (h0.reaches (run.reaches_before hy)) hup' hthere

/-- A call brings one connection up, and once. -/
theorem bringsUp_once (run : Run (initial settings store balancing) h t) (hx : x ∈ h) (hy : y ∈ h)
    {link' : Link} (hup : x.BringsUp id link) (hup' : y.BringsUp id link') :
    x = y ∧ link = link' := by
  rcases run.ordered hx hy with rfl | hreach | hreach
  · have h0 := proper_initial settings store balancing
    exact ⟨rfl, bringsUp_unique (h0.reaches (run.reaches_before hx)) hup' hup⟩
  · exact absurd hreach (not_reaches_of_bringsUp run hx hy hup hup')
  · exact absurd hreach (not_reaches_of_bringsUp run hy hx hup' hup)

/-- **A call to connect reports that it is connected exactly if its round has brought a connection
up.** It does so once, and installs this connection in the same step exactly if it was not shut
down before it; after a shutdown the connection has never been active and is closed, and the report
is the same. A call reports that it was cancelled only after a shutdown. -/
theorem connect_reports (settings : Settings) (store : Store) (balancing : Balancing)
    (run : Run (initial settings store balancing) h t) {result : Except Error (Awaited Unit)}
    (hr : t.result? id = some (.connected result)) :
    (result = .ok (.ready ()) ↔ ∃ x ∈ h, ∃ link, x.BringsUp id link) ∧
    (result = .ok .cancelled → t.control.isShutDown = true) ∧
    ∀ x ∈ h, ∀ link, x.BringsUp id link →
      (x.Installs link ↔ x.before.control.isShutDown = false) ∧
      (x.before.control.isShutDown = true →
        ¬ Entered h link.id ∧ t.control.fabric.isClosed link.id = true) ∧
      ∀ y ∈ h, ∀ link', y.BringsUp id link' → y = x ∧ link' = link := by
  have hproper : ∀ {x}, x ∈ h → x.before.Proper := fun hx =>
    (proper_initial settings store balancing).reaches (run.reaches_before hx)
  have hcustody : ∀ {x}, x ∈ h → Custody x.before.control x.before.tasks := fun hx =>
    custody_of_reaches (run.reaches_before hx)
  obtain ⟨x, hx, job, signal, turn, hturn, hid, hresult⟩ := returned_of_run run hr
  have htold := told_of_turns (hproper hx) hturn hresult
  rw [hid] at htold
  refine ⟨⟨fun hready => ?_, fun ⟨y, hy, link, hup⟩ => ?_⟩, fun hcancelled => ?_, ?_⟩
  · rcases htold with ⟨_, hup | ⟨i, hi⟩⟩ | ⟨hne, _⟩
    · exact ⟨x, hx, hup⟩
    · obtain ⟨g, hsub, hg, _⟩ := run.upto hx
      obtain ⟨y, hy, hup⟩ := bringsUp_of_installing hg hturn.mem hi
      exact ⟨y, hsub hy, hid ▸ hup⟩
    · exact absurd hready hne
  · obtain ⟨late, hc⟩ := concludes_of_bringsUp (hproper hy) (hcustody hy) hup
    cases (reported_of_concludes run hy hc hr).1
    rfl
  · rcases htold with ⟨hready, _⟩ | ⟨_, hshut⟩
    · cases hcancelled.symm.trans hready
    · have hlater := (Reaches.refl x.before).step _ (run.step_of_mem hx)
      exact (rests_reaches (hproper hx) (hshut hcancelled)
        (hlater.trans (run.reaches_of_mem hx))).shutDown
  · intro y hy link hup
    refine ⟨?_, fun hshut => ?_, fun z hz link' hup' => ?_⟩
    · cases hshut : y.before.control.isShutDown with
      | false => exact iff_of_true (installs_of_bringsUp (hproper hy) hup hshut).1 rfl
      | true =>
        have hnot := (discards_of_bringsUp (hproper hy) (hcustody hy) hup hshut).1
        exact iff_of_false hnot Bool.noConfusion
    · have hc := (discards_of_bringsUp (hproper hy) (hcustody hy) hup hshut).2
      refine ⟨not_entered_of_bringsUp run hy hup hshut, ?_⟩
      exact (custody_of_reaches run.reaches).isClosed
        ((reported_of_concludes run hy hc hr).2 link rfl)
    · exact bringsUp_once run hz hy hup' hup

/-- A call to connect brings the only node up, up to the last step. -/
def connecting : List Action :=
  [.addHost (.v4 .loopback 9042), .call .connect, .signal 0 .go] ++ (bringsUp 0).dropLast

theorem connect_reports_installed : ∃ h t x link, Run lone h t ∧
    t.result? 0 = some (.connected (.ok (.ready ()))) ∧ x ∈ h ∧ x.BringsUp 0 link ∧
    x.Installs link := by
  have hrun : ((lone.run (connecting ++ [.signal 0 .go])).any fun t =>
      t.control.isShutDown = false ∧ (t.result? 0).any CallResult.isReady = true) = true := by
    decide +kernel
  obtain ⟨t, r, live, hready⟩ := exists_reaches hrun
  obtain ⟨result, hr, hready⟩ := (Option.any_eq_true _ _).mp hready
  obtain rfl := CallResult.eq_ready hready
  obtain ⟨h, run⟩ := Run.of_reaches r
  obtain ⟨hiff, _, hall⟩ := connect_reports _ _ _ run hr
  obtain ⟨x, hx, link, hup⟩ := hiff.mp rfl
  have hlater := (Reaches.refl x.before).step _ (run.step_of_mem hx)
  have hlive := live_of_reaches ((proper_initial _ _ _).reaches (run.reaches_before hx))
    (hlater.trans (run.reaches_of_mem hx)) live
  exact ⟨h, t, x, link, run, hr, hx, hup, (hall x hx link hup).1.mpr hlive⟩

/-- A shutdown meets the last answer of a call to connect: the call reports that it is connected,
and no connection has ever been installed. -/
theorem connect_reports_discarded : ∃ h t, Run lone h t ∧
    t.result? 0 = some (.connected (.ok (.ready ()))) ∧ ∀ x ∈ h, ∀ link, ¬ x.Installs link := by
  have hrun : ((lone.run (connecting ++
      [.call .shutdown, .signal 1 .go, .signal 0 .go, .signal 0 .closed])).any fun t =>
      t.control.announced = [] ∧ (t.result? 0).any CallResult.isReady = true) = true := by
    decide +kernel
  obtain ⟨t, r, hnone, hready⟩ := exists_reaches hrun
  obtain ⟨result, hr, hready⟩ := (Option.any_eq_true _ _).mp hready
  obtain rfl := CallResult.eq_ready hready
  obtain ⟨h, run⟩ := Run.of_reaches r
  refine ⟨h, t, run, hr, fun x hx link ⟨_, hannounced⟩ => ?_⟩
  have hafter := (run.reaches_before hx).step _ (run.step_of_mem hx)
  have hsuffix := announced_reaches ((proper_initial _ _ _).reaches hafter) (run.reaches_of_mem hx)
  rw [hnone, hannounced] at hsuffix
  cases List.suffix_nil.mp hsuffix

end System

end ControlChannel
