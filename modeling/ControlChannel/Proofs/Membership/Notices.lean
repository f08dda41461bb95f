import ControlChannel.Proofs.Membership.Reconciling
import Mathlib.Data.List.Chain

/-! # Notices of changes of the host list

A change of the host list says which record was put in or taken out (`Change.Happens`), and
changes that happened one after another turn the list into what it is (`Change.History`): for every
address joining and leaving alternate. The store tells a change to whoever is registered, in the
order of registration, once for each registration (`Fabric.Announces`). Main statement: what adding
or removing a host does is nothing, or one change that is announced (`announces_addHost`,
`announces_removeHost`). -/

namespace ControlChannel

abbrev Hosts := Std.ExtTreeMap Address Host

namespace Change

/-- The record that joined or left. -/
def host : Change → Host
  | .joined host | .left host => host

def address (c : Change) : Address := c.host.address

def joins : Change → Bool
  | .joined _ => true
  | .left _ => false

/-- The list of hosts as somebody keeps it who is told of the change. -/
def apply (hosts : Hosts) : Change → Hosts
  | .joined host => hosts.insert host.address host
  | .left host => hosts.erase host.address

/-- A record that is put in was not there under its address; one that is taken out was. -/
inductive Happens (before : Hosts) : Change → Hosts → Prop where
  | joined {host : Host} (unknown : before[host.address]? = none) :
      Happens before (.joined host) (before.insert host.address host)
  | left {host : Host} (known : before[host.address]? = some host) :
      Happens before (.left host) (before.erase host.address)

/-- These changes happened one after another. -/
inductive History : Hosts → List Change → Hosts → Prop where
  | nil {hosts : Hosts} : History hosts [] hosts
  | cons {before between after : Hosts} {c : Change} {rest : List Change}
      (first : Happens before c between) (later : History between rest after) :
      History before (c :: rest) after

variable {before after : Hosts} {c : Change} {changes : List Change}

theorem Happens.apply_eq (h : Happens before c after) : c.apply before = after := by
  cases h <;> rfl

theorem Happens.mem_iff (h : Happens before c after) (a : Address) :
    a ∈ after ↔ if c.address = a then c.joins = true else a ∈ before := by
  cases h with
  | joined unknown => simp [address, host, joins, Decidable.or_iff_not_imp_left]
  | left known => simp [address, host, joins]

theorem Happens.mem_before_iff (h : Happens before c after) :
    c.address ∈ before ↔ c.joins = false := by
  cases h with
  | joined unknown => simp [address, host, joins]; grind
  | left known => simp [address, host, joins]; grind

theorem History.foldl_eq (h : History before changes after) :
    changes.foldl apply before = after := by
  induction h with
  | nil => rfl
  | cons first _ ih => rw [List.foldl_cons, first.apply_eq, ih]

/-- Whether an address is known at first, and after each of the changes that concern it. -/
def turns (hosts : Hosts) (a : Address) (changes : List Change) : List Bool :=
  decide (a ∈ hosts) :: (changes.filter (·.address = a)).map joins

/-- An address joins only when it is not known and leaves only when it is. -/
theorem History.alternates (h : History before changes after) (a : Address) :
    (turns before a changes).IsChain (· ≠ ·) := by
  induction h with
  | nil => exact .singleton _
  | @cons before between after c rest first later ih =>
    have hmem := first.mem_iff a
    by_cases ha : c.address = a
    · have hbefore : decide (a ∈ before) = !c.joins := by
        subst ha
        cases hj : c.joins <;> simp [first.mem_before_iff, hj]
      have hbetween : decide (a ∈ between) = c.joins := by
        rw [if_pos ha] at hmem
        cases hj : c.joins <;> simp [hmem, hj]
      rw [turns, List.filter_cons_of_pos (by simpa using ha), List.map_cons, hbefore]
      rw [turns, hbetween] at ih
      exact .cons_cons (by cases c.joins <;> decide) ih
    · rw [if_neg ha] at hmem
      rw [turns, List.filter_cons_of_neg (by simpa using ha)]
      have hsame : decide (a ∈ before) = decide (a ∈ between) := by simp [hmem]
      rw [hsame]
      exact ih

end Change

/-- The name under which a listener notes what it hears. -/
def Listener.recorder? : Listener → Option String
  | .recorder name => some name
  | .balancing | .silent _ => none

/-- The recorders, in the order of their registration. -/
def Store.recorders (s : Store) : List String := s.listeners.filterMap Listener.recorder?

/-- What a round-robin policy makes of a change. -/
def RoundRobin.follow (r : RoundRobin) : Change → RoundRobin
  | .joined host => r.join host.address
  | .left host => r.leave host.address

def Balancing.follow (b : Balancing) : Change → Balancing
  | .joined host => b.join host.address
  | .left host => b.leave host.address

theorem Balancing.follow_roundRobin (r : RoundRobin) (c : Change) :
    (Balancing.roundRobin r).follow c = .roundRobin (r.follow c) := by
  cases c <;> rfl

/-- A policy that was told of a change makes nothing more of being told again. -/
theorem Balancing.follow_follow (b : Balancing) (c : Change) :
    (b.follow c).follow c = b.follow c := by
  cases c with
  | joined host =>
    cases b with
    | roundRobin r =>
      have hmem : host.address ∈ (r.join host.address).live := (r.mem_join _ _).mpr (.inr rfl)
      refine congrArg roundRobin ?_
      rw [RoundRobin.join.eq_def (r.join host.address), if_pos hmem]
    | ordered hosts =>
      refine congrArg ordered (Std.ExtTreeSet.ext_mem fun a => ?_)
      simp
  | left host =>
    cases b with
    | roundRobin r => simp [follow, leave, RoundRobin.leave]
    | ordered hosts =>
      refine congrArg ordered (Std.ExtTreeSet.ext_mem fun a => ?_)
      simp

namespace Fabric

/-- What the recorders have heard, in order. -/
def heard (f : Fabric) : List (String × Change) :=
  f.trace.reverse.filterMap fun entry => match entry.what with
    | .heard name change => some (name, change)
    | _ => none

/-- What the recorder of this name has heard. -/
def heardBy (f : Fabric) (name : String) : List Change :=
  f.heard.filterMap fun (heard : String × Change) => if heard.1 = name then some heard.2 else none

theorem heardBy_congr {f g : Fabric} (h : g.heard = f.heard) (name : String) :
    g.heardBy name = f.heardBy name := by rw [heardBy, heardBy, h]

theorem heard_note (f : Fabric) (what : Happening) :
    (f.note what).heard = f.heard ++ match what with
      | .heard name change => [(name, change)]
      | _ => [] := by
  cases what <;> simp [heard, note]

theorem heard_deliver (f : Fabric) (l : Listener) (c : Change) :
    (f.deliver ⟨l, c⟩).heard = f.heard ++ (l.recorder?.map (·, c)).toList := by
  cases l with
  | balancing => cases c <;> exact (List.append_nil _).symm
  | recorder name => exact f.heard_note _
  | silent _ => exact (List.append_nil _).symm

theorem balancing_deliver (f : Fabric) (l : Listener) (c : Change) :
    (f.deliver ⟨l, c⟩).balancing =
      if l = .balancing then f.balancing.follow c else f.balancing := by
  cases l with
  | balancing => cases c <;> rfl
  | recorder _ | silent _ => rfl

theorem heard_tell (listeners : List Listener) (c : Change) (f : Fabric) :
    ((listeners.map (⟨·, c⟩)).foldl deliver f).heard =
      f.heard ++ (listeners.filterMap Listener.recorder?).map (·, c) := by
  induction listeners generalizing f with
  | nil => exact (List.append_nil _).symm
  | cons l ls ih =>
    rw [List.map_cons, List.foldl_cons, ih, heard_deliver, List.append_assoc]
    cases l <;> rfl

/-- The policy hears of a change, however often it is registered. -/
theorem balancing_tell (listeners : List Listener) (c : Change) (f : Fabric) :
    ((listeners.map (⟨·, c⟩)).foldl deliver f).balancing =
      if .balancing ∈ listeners then f.balancing.follow c else f.balancing := by
  induction listeners generalizing f with
  | nil => rfl
  | cons l ls ih =>
    rw [List.map_cons, List.foldl_cons, ih, balancing_deliver]
    by_cases hl : l = .balancing
    · subst hl
      simp [Balancing.follow_follow]
    · simp [hl, Ne.symm hl]

/-- A change of the host list that is told to everybody who is registered. -/
structure Announces (f g : Fabric) (c : Change) : Prop where
  happens : c.Happens f.store.hosts g.store.hosts
  heard : g.heard = f.heard ++ f.store.recorders.map (·, c)
  listeners : g.store.listeners = f.store.listeners
  balancing : ∀ r, f.balancing = .roundRobin r →
    g.balancing = .roundRobin (if .balancing ∈ f.store.listeners then r.follow c else r)

theorem announces_of_tellAll {f : Fabric} {store : Store} {c : Change}
    (happens : c.Happens f.store.hosts store.hosts)
    (listeners : store.listeners = f.store.listeners) :
    f.Announces ((f.store.tellAll c).foldl deliver { f with store }) c := by
  have hstore : ((f.store.tellAll c).foldl deliver { f with store }).store = store :=
    foldl_deliver Fabric.store store_deliver _ _
  refine ⟨?_, heard_tell f.store.listeners c _, ?_, fun r hr => ?_⟩
  · rw [hstore]
    exact happens
  · rw [hstore, listeners]
  · refine (balancing_tell f.store.listeners c _).trans ?_
    rw [hr, Balancing.follow_roundRobin, ← apply_ite]

theorem announces_addHost (f : Fabric) (a : Address) :
    f.addHost a = f ∨ ∃ c, f.Announces (f.addHost a) c := by
  unfold addHost Store.addHost
  split
  · exact .inl rfl
  · rename_i hunknown
    exact .inr ⟨_, announces_of_tellAll (.joined hunknown) rfl⟩

theorem announces_removeHost {f : Fabric} (keyed : f.store.Keyed) (a : Address) :
    f.removeHost a = f ∨ ∃ c, f.Announces (f.removeHost a) c := by
  unfold removeHost Store.removeHost
  split
  · exact .inl rfl
  · rename_i host hknown
    have haddress : host.address = a := keyed a host hknown
    subst haddress
    exact .inr ⟨_, announces_of_tellAll (.left hknown) rfl⟩

end Fabric

end ControlChannel
