import SingingVoice.Proofs.Frq.Acceptance
import SingingVoice.Proofs.Frq.RoundTrip
import SingingVoice.Proofs.Voicebank.Session

/-!
# Loads that race for one frequency map

Aliases of one audio file share the file of its frequency map, and a voicebank does not make them
wait for each other. `Race.Step` interleaves any number of loads that have not found their alias in
memory: each looks whether the map is there, and then either reads it, or makes an empty file and
writes the map into it. Making the file and writing it are two steps, and a write may break off.

`Begun` says what this can lead to: at the place of the map is nothing or a beginning of the map,
and a load returns the analysis or finds that the file is no frequency map. `Settled` says that a
file is there and no load is about to write it. Then it stays as it is, and every load reads it.
-/

namespace SingingVoice

/-! ## Torn maps -/

namespace Frq

variable {α : Type} [BitPattern α] {frq : Frq α} {bytes : List UInt8}

/-- The beginning of a map is no map. -/
theorem ofBytes_of_beginning (hframes : frq.frames.length ≤ maxFrames)
    (hbegins : bytes <+: frq.toBytes) (hstrict : bytes ≠ frq.toBytes) :
    ∃ fault, (ofBytes bytes : Except Fault (Frq α)) = .error fault := by
  have hlength : (frq.map BitPattern.toBits).frames.length ≤ maxFrames := by
    rw [map, List.length_map]
    exact hframes
  rcases holds_or_refused bytes with hholds | ⟨fault, hrefused⟩
  · exact absurd hholds (not_holds_of_beginning hlength hbegins hstrict)
  · exact ⟨fault, by rw [ofBytes, decode_of_refused hrefused]; rfl⟩

end Frq

namespace Voicebank

open FileTree Session

variable {α : Type} [BitPattern α]

/-- How far a load has come. -/
inductive Progress (α : Type) where
  /-- It has not looked for the map yet. -/
  | begun
  /-- It has seen a file, which it will read. -/
  | found
  /-- It has seen no file. It has the analysis and will store it. -/
  | missing
  /-- It has made an empty file, and will write the map. -/
  | created
  /-- It has returned. -/
  | returned (result : Except (VoicebankError α) (Frq α))

/-- A tree, and the loads that work on the map at one path of it. -/
structure Race (α : Type) where
  tree : FileTree
  loads : List (Progress α)

namespace Race

/-- `Action path frq tree before tree' after`: the next thing that one load does, if the map is at
the path and the analysis is `frq`. A file may fail to be made, and a write may break off; both are
passed over. -/
inductive Action (path : String) (frq : Frq α) :
    FileTree → Progress α → FileTree → Progress α → Prop
  | check {tree} : Action path frq tree .begun tree (if tree.isFile path then .found else .missing)
  | read {tree} : Action path frq tree .found tree (.returned (mapOf tree path))
  | create {tree tree'} : tree.create path = .ok tree' →
    Action path frq tree .missing tree' .created
  | giveUp {tree} : Action path frq tree .missing tree (.returned (.ok frq))
  | write {tree tree' written} : written <+: frq.toBytes → tree.overwrite path written = .ok tree' →
    Action path frq tree .created tree' (.returned (.ok frq))

/-- A load begins, or one that has begun acts. -/
inductive Step (path : String) (frq : Frq α) : Race α → Race α → Prop
  | begin (race) : Step path frq race ⟨race.tree, race.loads ++ [.begun]⟩
  | act {race i before tree' after} : race.loads[i]? = some before →
    Action path frq race.tree before tree' after →
    Step path frq race ⟨tree', race.loads.set i after⟩

/-- Any number of steps. -/
def Steps (path : String) (frq : Frq α) : Race α → Race α → Prop :=
  Relation.ReflTransGen (Step path frq)

variable {path : String} {frq : Frq α} {start race later : Race α} {names : List String}

section Check

variable {tree : FileTree}

theorem Action.check_missing (habsent : tree.isFile path = false) :
    Action path frq tree .begun tree .missing := by
  have hcheck : Action path frq tree .begun tree (if tree.isFile path then .found else .missing) :=
    .check
  rwa [habsent] at hcheck

theorem Action.check_found (hfile : tree.isFile path) :
    Action path frq tree .begun tree .found := by
  have hcheck : Action path frq tree .begun tree (if tree.isFile path then .found else .missing) :=
    .check
  rwa [if_pos hfile] at hcheck

end Check

/-! ## What is on disk -/

/-- A beginning written over the front of a beginning leaves a beginning. -/
theorem overwritten_prefix {written before whole : List UInt8} (hwritten : written <+: whole)
    (hbefore : before <+: whole) : written ++ before.drop written.length <+: whole := by
  rcases List.prefix_or_prefix_of_prefix hwritten hbefore with ⟨rest, rfl⟩ | hshorter
  · rwa [List.drop_left]
  · rwa [List.drop_eq_nil_of_le hshorter.length_le, List.append_nil]

/-- Reading a beginning of the map gives the analysis if it is the whole, and fails otherwise. -/
theorem mapOf_of_beginning {tree : FileTree} {bytes : List UInt8}
    (hpattern : ∀ x : α, BitPattern.ofBits (BitPattern.toBits x) = x)
    (hframes : frq.frames.length ≤ Frq.maxFrames) (hread : tree.read path = .ok bytes)
    (hbegins : bytes <+: frq.toBytes) :
    (bytes = frq.toBytes ∧ mapOf tree path = .ok frq) ∨
      (bytes ≠ frq.toBytes ∧
        ∃ fault, (mapOf tree path : Except _ (Frq α)) = .error (.format fault)) := by
  simp only [mapOf, hread, Except.mapError, Except.ok_bind]
  by_cases hwhole : bytes = frq.toBytes
  · have happend := Frq.ofBytes_toBytes_append hpattern hframes []
    rw [List.append_nil, ← hwhole] at happend
    exact .inl ⟨hwhole, by rw [happend]⟩
  · obtain ⟨fault, hfault⟩ := Frq.ofBytes_of_beginning hframes hbegins hwhole
    exact .inr ⟨hwhole, fault, by rw [hfault]⟩

/-- `Begun origin path frq names race`: at the place of the map is nothing or a beginning of the
map, elsewhere the tree is the one at the origin, and the loads have gone on accordingly. -/
structure Begun (origin : FileTree) (path : String) (frq : Frq α) (names : List String)
    (race : Race α) : Prop where
  others : ∀ other, other ≠ names → race.tree.entry? other = origin.entry? other
  locate : race.tree.locate path = .ok names
  entry : race.tree.entry? names = none ∨
    ∃ bytes, race.tree.entry? names = some (.file bytes) ∧ bytes <+: frq.toBytes
  seen : .found ∈ race.loads → race.tree.entry? names ≠ none
  returned : ∀ result, .returned result ∈ race.loads →
    result = .ok frq ∨ ∃ fault, result = .error (.format fault)

namespace Begun

variable {origin : FileTree} {bytes : List UInt8}

theorem entry_ne_directory (h : Begun origin path frq names race) :
    race.tree.entry? names ≠ some .directory := by
  rcases h.entry with hnone | ⟨bytes, hfile, -⟩
  · rw [hnone]; exact nofun
  · rw [hfile]; exact nofun

theorem prefix_of_entry (h : Begun origin path frq names race)
    (hentry : race.tree.entry? names = some (.file bytes)) : bytes <+: frq.toBytes := by
  rcases h.entry with hnone | ⟨bytes', hfile, hbegins⟩
  · rw [hnone] at hentry
    cases hentry
  · rw [hfile] at hentry
    cases hentry
    exact hbegins

theorem prefix_of_read (h : Begun origin path frq names race)
    (hread : race.tree.read path = .ok bytes) : bytes <+: frq.toBytes := by
  obtain ⟨_, hlocate, hentry⟩ := read_eq_ok.mp hread
  obtain rfl := Except.ok.inj (h.locate.symm.trans hlocate)
  exact h.prefix_of_entry hentry

/-- A load goes on without changing the tree. -/
theorem set_load (h : Begun origin path frq names race) (i : Nat) {after : Progress α}
    (hseen : after = .found → race.tree.entry? names ≠ none)
    (hreturned : ∀ result, after = .returned result →
      result = .ok frq ∨ ∃ fault, result = .error (.format fault)) :
    Begun origin path frq names ⟨race.tree, race.loads.set i after⟩ where
  others := h.others
  locate := h.locate
  entry := h.entry
  seen hfound := (List.mem_or_eq_of_mem_set hfound).elim h.seen fun heq => hseen heq.symm
  returned result hresult :=
    (List.mem_or_eq_of_mem_set hresult).elim (h.returned result)
      fun heq => hreturned result heq.symm

/-- A beginning of the map is put in its place. -/
theorem put (h : Begun origin path frq names race) (hbegins : bytes <+: frq.toBytes) :
    Begun origin path frq names ⟨race.tree.put names bytes, race.loads⟩ := by
  have hdirectory := h.entry_ne_directory
  have hself : entry? (race.tree.put names bytes) names = some (.file bytes) :=
    entry?_put_self (ne_nil_of_ne_directory hdirectory) bytes
  constructor
  · exact fun other hother => by rw [entry?_put_of_ne hother, h.others other hother]
  · exact locate_of_directories (fun _ => entry?_put_of_directory hdirectory) h.locate
  · exact .inr ⟨bytes, hself, hbegins⟩
  · exact fun _ => by rw [hself]; exact nofun
  · exact h.returned

theorem step (hpattern : ∀ x : α, BitPattern.ofBits (BitPattern.toBits x) = x)
    (hframes : frq.frames.length ≤ Frq.maxFrames) (h : Begun origin path frq names race)
    (hstep : Step path frq race later) : Begun origin path frq names later := by
  cases hstep with
  | begin =>
    refine ⟨h.others, h.locate, h.entry, fun hfound => h.seen ?_, fun result hresult =>
      h.returned result ?_⟩
    · simpa using hfound
    · simpa using hresult
  | act hload haction =>
    have hmem := List.mem_of_getElem? hload
    cases haction with
    | check =>
      refine h.set_load _ (fun hafter => ?_) (fun result hafter => ?_)
      · split at hafter
        case isTrue hfile =>
          obtain ⟨bytes, hread⟩ := isFile_iff.mp hfile
          obtain ⟨_, hlocate, hentry⟩ := read_eq_ok.mp hread
          rw [Except.ok.inj (h.locate.symm.trans hlocate), hentry]
          exact nofun
        case isFalse => cases hafter
      · split at hafter <;> cases hafter
    | read =>
      refine h.set_load _ nofun fun result hafter => ?_
      obtain ⟨bytes, hfile, hbegins⟩ := h.entry.resolve_left (h.seen hmem)
      have hread := read_eq_ok.mpr ⟨names, h.locate, hfile⟩
      rw [← Progress.returned.inj hafter]
      exact (mapOf_of_beginning hpattern hframes hread hbegins).imp And.right And.right
    | create hcreate =>
      obtain ⟨_, hlocate, -, -, rfl⟩ := create_eq_ok.mp hcreate
      obtain rfl := Except.ok.inj (h.locate.symm.trans hlocate)
      exact (h.put List.nil_prefix).set_load _ nofun nofun
    | giveUp =>
      exact h.set_load _ nofun fun result hafter => .inl (Progress.returned.inj hafter).symm
    | write hwritten hwrite =>
      obtain ⟨_, before, hlocate, hentry, rfl⟩ := overwrite_eq_ok.mp hwrite
      obtain rfl := Except.ok.inj (h.locate.symm.trans hlocate)
      have hbegins := overwritten_prefix hwritten (h.prefix_of_entry hentry)
      exact (h.put hbegins).set_load _ nofun fun result hafter =>
        .inl (Progress.returned.inj hafter).symm

theorem steps (hpattern : ∀ x : α, BitPattern.ofBits (BitPattern.toBits x) = x)
    (hframes : frq.frames.length ≤ Frq.maxFrames) (h : Begun origin path frq names race)
    (hsteps : Steps path frq race later) : Begun origin path frq names later := by
  induction hsteps with
  | refl => exact h
  | tail _ hstep ih => exact ih.step hpattern hframes hstep

end Begun

/-! ## When nobody writes -/

/-- There is a file at the path, and no load is about to make or to write it. -/
structure Settled (path : String) (race : Race α) : Prop where
  isFile : race.tree.isFile path
  missing : .missing ∉ race.loads
  created : .created ∉ race.loads

/-- `ReadSince path race later`: what loads have returned since then is what they read there. -/
def ReadSince (path : String) (race later : Race α) : Prop :=
  ∀ (i : Nat) (result : Except (VoicebankError α) (Frq α)),
    later.loads[i]? = some (.returned result) →
      race.loads[i]? = some (.returned result) ∨ result = mapOf race.tree path

namespace Settled

/-- The tree stays as it is, and a load that returns has read the file. -/
theorem step (h : Settled path race) (hstep : Step path frq race later) :
    Settled path later ∧ later.tree = race.tree ∧ ReadSince path race later := by
  cases hstep with
  | begin =>
    refine ⟨⟨h.isFile, by simpa using h.missing, by simpa using h.created⟩, rfl, ?_⟩
    intro i result hresult
    rw [List.getElem?_append] at hresult
    split at hresult
    case isTrue => exact .inl hresult
    case isFalse =>
      have hbegun := List.mem_singleton.mp (List.mem_of_getElem? hresult)
      cases hbegun
  | @act i before tree' after hload haction =>
    have hmem := List.mem_of_getElem? hload
    -- Only loads that look for the map or read it are left.
    have hafter : tree' = race.tree ∧
        (after = .found ∨ after = .returned (mapOf race.tree path)) := by
      cases haction with
      | check => exact ⟨rfl, .inl (if_pos h.isFile)⟩
      | read => exact ⟨rfl, .inr rfl⟩
      | create => exact absurd hmem h.missing
      | giveUp => exact absurd hmem h.missing
      | write => exact absurd hmem h.created
    obtain ⟨rfl, hafter⟩ := hafter
    refine ⟨⟨h.isFile, ?_, ?_⟩, rfl, ?_⟩
    · intro hmissing
      rcases List.mem_or_eq_of_mem_set hmissing with hmissing | rfl
      · exact h.missing hmissing
      · exact hafter.elim nofun nofun
    · intro hcreated
      rcases List.mem_or_eq_of_mem_set hcreated with hcreated | rfl
      · exact h.created hcreated
      · exact hafter.elim nofun nofun
    · intro j result hresult
      rw [List.getElem?_set] at hresult
      split at hresult
      case isTrue =>
        split at hresult
        case isTrue =>
          obtain rfl := Option.some.inj hresult
          exact .inr (hafter.elim nofun Progress.returned.inj)
        case isFalse => cases hresult
      case isFalse => exact .inl hresult

theorem steps (h : Settled path race) (hsteps : Steps path frq race later) :
    Settled path later ∧ later.tree = race.tree ∧ ReadSince path race later := by
  induction hsteps with
  | refl => exact ⟨h, rfl, fun _ _ hresult => .inl hresult⟩
  | tail _ hstep ih =>
    obtain ⟨hsettled, htree, hloads⟩ := ih
    obtain ⟨hsettled', htree', hloads'⟩ := hsettled.step hstep
    refine ⟨hsettled', htree'.trans htree, fun i result hresult => ?_⟩
    rcases hloads' i result hresult with hbefore | hread
    · exact hloads i result hbefore
    · exact .inr (by rw [hread, htree])

end Settled

end Race

end Voicebank

end SingingVoice
