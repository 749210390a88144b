import Handover.Proofs.Registry.Access
import Handover.Proofs.Time

/-!
# Heartbeats and the agents that give none

The time of the last heartbeat only goes forward, even if the clock goes back, and it is never earlier than what the
clock showed. So an agent that was heard of lately is not taken for one that was not: `beating_agents_never_stale`.
-/

namespace Handover
namespace Registry

namespace Access

/-- The access is a heartbeat of the agent. -/
def beats (name : String) : Access → Bool
  | heartbeat beating _ => beating = name
  | _ => false

/-- The access does not enter or remove the agent. -/
def Tends (name : String) : Access → Prop
  | register a _ | restore a => a.name ≠ name
  | unregister gone => gone ≠ name
  | heartbeat _ _ | updateState _ _ | setStatus _ _ | capture _ _ => True

/-- The clock shows an ordinary time, and no agent is restored that was heard of in a leap second. A clock counts the
seconds since the start of 1970 and has no leap seconds; only the text of a registration that others wrote can name one.
The age of such an agent is off by up to a second (`Instant.nanosBetween`), so it may be listed too early or too late. -/
def Ordinary : Access → Prop
  | register _ now | heartbeat _ now => now.Plain ∧ now.Representable
  | restore a => a.lastHeartbeat.Plain
  | unregister _ | updateState _ _ | setStatus _ _ | capture _ _ => True

end Access

variable {r s : Registry} {x : Access} {xs : List Access} {name : String} {a b : Registration}
  {f : Registration → Registration} {maxAge : Nat} {now t : Instant}

theorem keep_modify_found (found : r.agents.get? name = some a) (f : Registration → Registration) :
    (r.keep ((r.modify name f).map (·.2))).agents.get? name = some (f a) := by
  rw [modify_found r f found]
  exact Table.get?_insert_self name (f a) r.agents

/-- A heartbeat makes the time of the last one later, whatever the clock shows, and nothing else changes that time. -/
theorem access_tended (found : r.agents.get? name = some a) (tends : x.Tends name) :
    ∃ a', (r.access x).agents.get? name = some a' ∧
      if x.beats name then a.lastHeartbeat.before a'.lastHeartbeat = true else a'.lastHeartbeat = a.lastHeartbeat := by
  by_cases own : name = x.about
  · cases x with
    | register | restore | unregister => exact absurd own.symm tends
    | heartbeat beating now =>
      obtain rfl : name = beating := own
      refine ⟨_, keep_modify_found found _, ?_⟩
      rw [Access.beats, if_pos (decide_eq_true rfl)]
      exact Instant.before_later_tick now a.lastHeartbeat
    | updateState | setStatus =>
      obtain rfl := own
      exact ⟨_, keep_modify_found found _, rfl⟩
    | capture => exact ⟨a, found, rfl⟩
  · refine ⟨a, (access_elsewhere own).trans found, ?_⟩
    have silent : x.beats name = false := by
      cases x with
      | heartbeat beating now => exact decide_eq_false (Ne.symm own)
      | _ => rfl
    rw [silent]
    rfl

theorem accesses_tended (found : r.agents.get? name = some a) (tends : ∀ x ∈ xs, x.Tends name) :
    ∃ a', (xs.foldl access r).agents.get? name = some a' ∧
      if xs.any (·.beats name) then a.lastHeartbeat.before a'.lastHeartbeat = true
      else a'.lastHeartbeat = a.lastHeartbeat := by
  induction xs generalizing r a with
  | nil => exact ⟨a, found, rfl⟩
  | cons x rest ih =>
    obtain ⟨b, found', first⟩ := access_tended found (tends x (.head _))
    obtain ⟨a', found'', later⟩ := ih found' fun y there => tends y (.tail _ there)
    refine ⟨a', found'', ?_⟩
    rw [List.any_cons]
    cases beat : x.beats name <;> cases more : rest.any (·.beats name) <;> simp only [beat, more] at first later
    · exact later.trans first
    · exact first ▸ later
    · exact (congrArg (a.lastHeartbeat.before ·) later).trans first
    · exact Instant.before_trans first later

/-! ## What is listed as stale -/

theorem stale_eq (made : Made r) : r.stale maxAge now =
    (r.agents.values.filter fun a => min maxAge longestAge < a.heartbeatAge now).map (·.name) := by
  have sorted := values_increasing (made_named made) (made_ordered made)
  refine List.mergeSort_of_pairwise ?_
  refine List.Pairwise.imp (fun less => decide_eq_true (Std.le_of_lt less)) (sorted.sublist ?_)
  exact List.filter_sublist.map Registration.name

theorem stale_increasing (made : Made r) : (r.stale maxAge now).Pairwise (· < ·) := by
  rw [stale_eq made]
  exact (values_increasing (made_named made) (made_ordered made)).sublist (List.filter_sublist.map Registration.name)

theorem mem_stale_iff (made : Made r) :
    name ∈ r.stale maxAge now ↔ ∃ a, r.get name = .ok a ∧ min maxAge longestAge < a.heartbeatAge now := by
  have coherent := made_coherent made
  rw [stale_eq made, ← list_eq (made_named made) (made_ordered made)]
  simp only [List.mem_map, List.mem_filter, decide_eq_true_eq, coherent.listed, and_right_comm]

/-- Between instants that can be written no age is too long to be asked for. -/
theorem mem_stale_iff_of_representable (made : Made r) (present : now.Representable)
    (dated : ∀ a, r.get name = .ok a → a.lastHeartbeat.Representable) :
    name ∈ r.stale maxAge now ↔ ∃ a, r.get name = .ok a ∧ maxAge < Instant.nanosBetween a.lastHeartbeat now := by
  rw [mem_stale_iff made]
  refine exists_congr fun a => and_congr_right fun found => ?_
  have bounded := Instant.nanosBetween_bounded (dated a found) present
  rw [Registration.heartbeatAge, Instant.age, longestAge]
  omega

end Registry

/-- A registry, and what the clock showed when each of its agents was registered or gave a heartbeat the last time. -/
structure Pulse where
  registry : Registry := {}
  heard : Table Instant := []

namespace Pulse
open Registry

/-- Of an agent that was restored it is not known when it was heard of. An access that is refused changes nothing. -/
def hear (p : Pulse) : Access → Table Instant
  | .register a now => if (p.registry.register a now).isOk then p.heard.insert a.name now else p.heard
  | .restore a => if (p.registry.restore a).isOk then p.heard.erase a.name else p.heard
  | .unregister name => p.heard.erase name
  | .heartbeat name now => if (p.registry.heartbeat name now).isOk then p.heard.insert name now else p.heard
  | .updateState _ _ | .setStatus _ _ | .capture _ _ => p.heard

def act (p : Pulse) (x : Access) : Pulse := ⟨p.registry.access x, p.hear x⟩

def run (p : Pulse) (accesses : List Access) : Pulse := accesses.foldl act p

variable {p : Pulse} {x : Access} {accesses : List Access} {name : String} {a b : Registration} {t now : Instant}
  {f : Registration → Registration} {maxAge : Nat} {agents agents' : Table Registration} {heard heard' : Table Instant}

/-- What an access can come to: the agents after it, and when they were heard of. -/
inductive Goes (p : Pulse) : Access → Table Registration → Table Instant → Prop where
  | same {x : Access} : Goes p x p.registry.agents p.heard
  | registered (a : Registration) (now : Instant) :
      Goes p (.register a now)
        (p.registry.agents.insert a.name { a with registeredAt := now, lastHeartbeat := now })
        (p.heard.insert a.name now)
  | restored (a : Registration) :
      Goes p (.restore a) (p.registry.agents.insert a.name a) (p.heard.erase a.name)
  | removed (name : String) :
      Goes p (.unregister name) (p.registry.agents.erase name) (p.heard.erase name)
  | beat {name : String} {a : Registration} (found : p.registry.agents.get? name = some a) (now : Instant) :
      Goes p (.heartbeat name now)
        (p.registry.agents.insert name { a with lastHeartbeat := now.later a.lastHeartbeat.tick })
        (p.heard.insert name now)
  | changed {x : Access} {name : String} {a b : Registration} (found : p.registry.agents.get? name = some a)
      (same : b.lastHeartbeat = a.lastHeartbeat) : Goes p x (p.registry.agents.insert name b) p.heard

/-- A change that leaves the time of the last heartbeat alone. -/
theorem modify_goes (same : ∀ a, (f a).lastHeartbeat = a.lastHeartbeat) :
    p.Goes x (p.registry.keep ((p.registry.modify name f).map (·.2))).agents p.heard := by
  cases found : p.registry.agents.get? name with
  | none =>
    rw [modify_missing _ _ found]
    exact .same
  | some a =>
    rw [modify_found _ _ found]
    exact .changed found (same a)

theorem act_goes (p : Pulse) (x : Access) : p.Goes x (p.act x).registry.agents (p.act x).heard := by
  cases x with
  | register a now =>
    rw [act, access, hear]
    by_cases named : a.name = ""
    · rw [register, if_pos named]
      exact .same
    · rw [register_eq _ _ _ named]
      exact .registered a now
  | restore a =>
    rw [act, access, hear]
    by_cases named : a.name = ""
    · rw [restore, if_pos named]
      exact .same
    · rw [restore_eq _ _ named]
      exact .restored a
  | unregister name => exact .removed name
  | heartbeat name now =>
    rw [act, access, hear, heartbeat]
    cases found : p.registry.agents.get? name with
    | none =>
      rw [modify_missing _ _ found]
      exact .same
    | some a =>
      rw [modify_found _ _ found]
      exact .beat found now
  | updateState | setStatus => exact modify_goes fun _ => rfl
  | capture => exact .same

/-- No agent that was heard of has an earlier time noted than the clock showed then. -/
def Noted (agents : Table Registration) (heard : Table Instant) : Prop :=
  ∀ name t, heard.get? name = some t → ∃ a, agents.get? name = some a ∧ a.lastHeartbeat.before t = false

/-- No time that is noted is in a leap second. -/
structure Ordinary (agents : Table Registration) (heard : Table Instant) : Prop where
  plain : ∀ name a, agents.get? name = some a → a.lastHeartbeat.Plain
  shown : ∀ name t, heard.get? name = some t → t.Plain ∧ t.Representable

theorem empty_noted : Noted [] [] := fun _ _ there => nomatch there

theorem empty_ordinary : Ordinary [] [] := ⟨fun _ _ there => (nomatch there), fun _ _ there => nomatch there⟩

theorem Noted.insert (noted : Noted agents heard) (after : a.lastHeartbeat.before t = false) :
    Noted (agents.insert name a) (heard.insert name t) := by
  intro other t' there
  rw [Table.get?_insert] at there ⊢
  split at there
  · rename_i own
    cases there
    exact ⟨a, if_pos own, after⟩
  · rename_i differs
    rw [if_neg differs]
    exact noted other t' there

theorem Noted.erase (noted : Noted agents heard)
    (elsewhere : ∀ other, other ≠ name → agents'.get? other = agents.get? other) :
    Noted agents' (heard.erase name) := by
  intro other t there
  rw [Table.get?_erase] at there
  split at there
  · cases there
  · rename_i differs
    rw [elsewhere other differs]
    exact noted other t there

theorem Noted.change (noted : Noted agents heard) (found : agents.get? name = some a)
    (same : b.lastHeartbeat = a.lastHeartbeat) : Noted (agents.insert name b) heard := by
  intro other t there
  obtain ⟨a', found', after⟩ := noted other t there
  rw [Table.get?_insert]
  split
  · rename_i own
    cases found.symm.trans (own ▸ found')
    exact ⟨b, rfl, same ▸ after⟩
  · exact ⟨a', found', after⟩

theorem Goes.noted (goes : p.Goes x agents heard) (noted : Noted p.registry.agents p.heard) : Noted agents heard := by
  cases goes with
  | same => exact noted
  | registered a now => exact noted.insert (Instant.not_before_self now)
  | restored a => exact noted.erase fun other differs => Table.get?_insert_of_ne differs a _
  | removed name => exact noted.erase fun other differs => Table.get?_erase_of_ne differs _
  | beat found now => exact noted.insert (Instant.later_not_before now _).1
  | changed found same => exact noted.change found same

theorem Ordinary.insert (ordinary : Ordinary agents heard) (plain : a.lastHeartbeat.Plain)
    (shown : ∀ name t, heard'.get? name = some t → t.Plain ∧ t.Representable) :
    Ordinary (agents.insert name a) heard' := by
  refine ⟨fun other b found => ?_, shown⟩
  rw [Table.get?_insert] at found
  split at found
  · cases found
    exact plain
  · exact ordinary.plain other b found

theorem Ordinary.shown_insert (ordinary : Ordinary agents heard) (clock : now.Plain ∧ now.Representable) :
    ∀ other t, (heard.insert name now).get? other = some t → t.Plain ∧ t.Representable := by
  intro other t there
  rw [Table.get?_insert] at there
  split at there
  · cases there
    exact clock
  · exact ordinary.shown other t there

theorem Ordinary.shown_erase (ordinary : Ordinary agents heard) (name : String) :
    ∀ other t, (heard.erase name).get? other = some t → t.Plain ∧ t.Representable := by
  intro other t there
  rw [Table.get?_erase] at there
  split at there
  · cases there
  · exact ordinary.shown other t there

theorem Goes.ordinary (goes : p.Goes x agents heard) (clock : x.Ordinary)
    (ordinary : Ordinary p.registry.agents p.heard) : Ordinary agents heard := by
  cases goes with
  | same => exact ordinary
  | registered a now => exact ordinary.insert clock.1 (ordinary.shown_insert clock)
  | restored a => exact ordinary.insert clock (ordinary.shown_erase a.name)
  | removed name =>
    refine ⟨fun other b found => ?_, ordinary.shown_erase name⟩
    rw [Table.get?_erase] at found
    split at found
    · cases found
    · exact ordinary.plain other b found
  | @beat name a found now =>
    have plain := Instant.later_plain clock.1 (Instant.tick_plain (ordinary.plain name a found))
    exact ordinary.insert plain (ordinary.shown_insert clock)
  | @changed _ name a b found same => exact ordinary.insert (same ▸ ordinary.plain name a found) ordinary.shown

theorem run_made (made : p.registry.Made) (accesses : List Access) : (p.run accesses).registry.Made := by
  induction accesses generalizing p with
  | nil => exact made
  | cons x rest ih => exact ih (access_made made x)

theorem run_noted (noted : Noted p.registry.agents p.heard) (accesses : List Access) :
    Noted (p.run accesses).registry.agents (p.run accesses).heard := by
  induction accesses generalizing p with
  | nil => exact noted
  | cons x rest ih => exact ih ((act_goes p x).noted noted)

theorem run_ordinary (ordinary : Ordinary p.registry.agents p.heard) (clock : ∀ x ∈ accesses, x.Ordinary) :
    Ordinary (p.run accesses).registry.agents (p.run accesses).heard := by
  induction accesses generalizing p with
  | nil => exact ordinary
  | cons x rest ih =>
    exact ih ((act_goes p x).ordinary (clock x (.head _)) ordinary) fun y there => clock y (.tail _ there)

/-- An agent is not listed that was heard of no longer ago than is allowed. -/
theorem heard_not_stale (made : p.registry.Made) (noted : Noted p.registry.agents p.heard)
    (ordinary : Ordinary p.registry.agents p.heard) (present : now.Plain ∧ now.Representable)
    (heard : p.heard.get? name = some t) (recent : Instant.nanosBetween t now ≤ maxAge) :
    name ∉ p.registry.stale maxAge now := by
  rw [mem_stale_iff made]
  rintro ⟨a, found, old⟩
  obtain ⟨a', found', after⟩ := noted name t heard
  cases (get_ok_iff.mp found).symm.trans found'
  obtain ⟨plain, representable⟩ := ordinary.shown name t heard
  have younger := Instant.nanosBetween_le after plain (ordinary.plain name a found') present.1
  have bounded := Instant.nanosBetween_bounded representable present.2
  rw [Registration.heartbeatAge, Instant.age, longestAge] at old
  omega

/-- What holds of heartbeats and of the list of stale agents. -/
structure Steady (r : Registry) : Prop where
  /-- However an agent is tended, the time of its last heartbeat is later afterwards if it gave any, and is the same
  otherwise. -/
  tended : ∀ (accesses : List Access) (name : String) (a : Registration),
    (∀ x ∈ accesses, x.Tends name) → r.get name = .ok a → ∃ a', (accesses.foldl access r).get name = .ok a' ∧
      if accesses.any (·.beats name) then a.lastHeartbeat.before a'.lastHeartbeat = true
      else a'.lastHeartbeat = a.lastHeartbeat
  increasing : ∀ maxAge now, (r.stale maxAge now).Pairwise (· < ·)
  /-- Just the agents are listed whose last heartbeat is longer ago than is allowed. -/
  listed : ∀ (maxAge : Nat) now name, now.Representable → (∀ a, r.get name = .ok a → a.lastHeartbeat.Representable) →
    (name ∈ r.stale maxAge now ↔ ∃ a, r.get name = .ok a ∧ maxAge < Instant.nanosBetween a.lastHeartbeat now)

theorem made_steady {r : Registry} (made : r.Made) : Steady r where
  tended accesses name a tends found := by
    obtain ⟨a', found', after⟩ := accesses_tended (get_ok_iff.mp found) tends
    exact ⟨a', get_ok_iff.mpr found', after⟩
  increasing _ _ := stale_increasing made
  listed _ _ _ present dated := mem_stale_iff_of_representable made present dated

/-- Whatever is done with a registry, heartbeats only go forward, and an agent whose last registration or heartbeat is
no longer ago than is allowed is not listed as stale. -/
theorem beating_agents_never_stale (accesses : List Access) :
    Steady (run {} accesses).registry ∧
      ((∀ x ∈ accesses, x.Ordinary) → ∀ name t (maxAge : Nat) now, (run {} accesses).heard.get? name = some t →
        now.Plain ∧ now.Representable → Instant.nanosBetween t now ≤ maxAge →
        name ∉ (run {} accesses).registry.stale maxAge now) := by
  have made : (run {} accesses).registry.Made := run_made .empty accesses
  refine ⟨made_steady made, fun clock name t maxAge now heard present recent => ?_⟩
  exact heard_not_stale made (run_noted empty_noted accesses) (run_ordinary empty_ordinary clock) present heard recent

end Pulse

namespace Sample

/-- The clock goes back by a minute before the heartbeat, which is noted just after the registration. -/
def jump : List Registry.Access :=
  [.register (.new "worker" "worker" ⟨0, 0⟩) ⟨100, 0⟩, .heartbeat "worker" ⟨40, 0⟩]

theorem shown_ordinary {second : Int} (first : -8334601228800 ≤ second) (last : second < 8210266876800) :
    Instant.Plain ⟨second, 0⟩ ∧ Instant.Representable ⟨second, 0⟩ := by
  have plain : 0 < billion := by decide
  have nanos : 0 < 2 * billion := by decide
  exact ⟨plain, first, last, nanos⟩

end Sample

namespace Pulse

theorem beating_agents_never_stale_after_jump :
    (∀ x ∈ Sample.jump, x.Ordinary) ∧ (run {} Sample.jump).heard.get? "worker" = some ⟨40, 0⟩ ∧
      "worker" ∉ (run {} Sample.jump).registry.stale 60000000000 ⟨100, 0⟩ ∧
      "worker" ∈ (run {} Sample.jump).registry.stale 60000000000 ⟨161, 0⟩ := by
  have ordinary : ∀ x ∈ Sample.jump, x.Ordinary := by
    intro x there
    simp only [Sample.jump, List.mem_cons, List.not_mem_nil, or_false] at there
    rcases there with rfl | rfl
    · exact Sample.shown_ordinary (by decide) (by decide)
    · exact Sample.shown_ordinary (by decide) (by decide)
  obtain ⟨steady, fresh⟩ := beating_agents_never_stale Sample.jump
  have heard : (run {} Sample.jump).heard.get? "worker" = some ⟨40, 0⟩ := rfl
  refine ⟨ordinary, heard, ?_, ?_⟩
  · exact fresh ordinary "worker" ⟨40, 0⟩ _ ⟨100, 0⟩ heard (Sample.shown_ordinary (by decide) (by decide)) (by decide)
  · have found : (run {} Sample.jump).registry.get "worker" =
        .ok { Registration.new "worker" "worker" ⟨100, 0⟩ with lastHeartbeat := ⟨100, 1⟩ } := rfl
    refine (steady.listed _ _ _ (Sample.shown_ordinary (by decide) (by decide)).2 fun a there => ?_).mpr ⟨_, found, ?_⟩
    · cases found.symm.trans there
      exact ⟨by decide, by decide, by decide⟩
    · decide

end Pulse
end Handover
