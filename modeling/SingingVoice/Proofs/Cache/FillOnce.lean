import Mathlib
import SingingVoice.Proofs.Cache.Callers

/-!
# Cells are filled once

Whatever the order in which callers of a cache act, a cell is filled at most once, and calls that
have looked up the same key between the same two clears share a cell and so a value. Two invariants
carry this: `Assigned` ties the cells that keys lead to, and have led to, to the lookups of the
calls, and `Kept` ties what is in the cells to what the calls have done. The main theorem is
`fills_once_in_every_order`.
-/

namespace SingingVoice.Cache.Shared

variable {ε V : Type}

/-! ## Cells of keys -/

/-- What the lookups so far say about keys and cells: a key that leads to a cell has been looked up
since the last clear, lookups since then are still good, and two lookups have the same cell exactly
if they are of the same key and no clear came between them. -/
structure Assigned (cache : Cache V) (clears : Nat) (tickets : List Ticket) : Prop where
  current : ∀ (key : String) (cell : Nat), cache.slots[key]? = some cell →
    ⟨key, cell, clears⟩ ∈ tickets
  good : ∀ ticket ∈ tickets, ticket.era = clears → cache.slots[ticket.key]? = some ticket.cell
  made : ∀ ticket ∈ tickets, ticket.cell < cache.cells.size
  past : ∀ ticket ∈ tickets, ticket.era ≤ clears
  same : ∀ first ∈ tickets, ∀ second ∈ tickets,
    first.cell = second.cell ↔ first.key = second.key ∧ first.era = second.era

namespace Assigned

variable {cache : Cache V} {clears : Nat} {tickets : List Ticket}

/-- No key has been looked up at first. -/
theorem initial : Assigned (Cache.empty : Cache V) 0 [] where
  current key cell h := by simp [Cache.empty] at h
  good := nofun
  made := nofun
  past := nofun
  same := nofun

/-- Keys lead to cells that have been made, and different keys to different cells. -/
theorem tidy (h : Assigned cache clears tickets) : cache.Tidy where
  bound key cell hslot := h.made _ (h.current key cell hslot)
  apart key other cell hkey hother :=
    ((h.same _ (h.current key cell hkey) _ (h.current other cell hother)).mp rfl).1

/-- No key leads to the cell of a lookup before the last clear. -/
theorem detached (h : Assigned cache clears tickets) {ticket : Ticket} (hticket : ticket ∈ tickets)
    (hera : ticket.era < clears) (key : String) : cache.slots[key]? ≠ some ticket.cell := by
  intro hslot
  have hsame := (h.same _ hticket _ (h.current key ticket.cell hslot)).mp rfl
  exact absurd hsame.2 (Nat.ne_of_lt hera)

/-- A lookup keeps the books. -/
theorem lookUp (h : Assigned cache clears tickets) (key : String) :
    Assigned (cache.claim key).2 clears (tickets ++ [⟨key, (cache.claim key).1, clears⟩]) := by
  cases hslot : cache.slots[key]? with
  | some cell =>
      -- the key has been looked up since the last clear, so the ticket is not new
      rw [claim_of_slot hslot]
      have hmem : ∀ {ticket}, ticket ∈ tickets ++ [⟨key, cell, clears⟩] → ticket ∈ tickets := by
        intro ticket hticket
        rcases List.mem_append.mp hticket with hold | hnew
        · exact hold
        · rw [List.mem_singleton.mp hnew]
          exact h.current key cell hslot
      exact {
        current := fun other place hother => List.mem_append_left _ (h.current other place hother)
        good := fun ticket hticket => h.good ticket (hmem hticket)
        made := fun ticket hticket => h.made ticket (hmem hticket)
        past := fun ticket hticket => h.past ticket (hmem hticket)
        same := fun first hfirst second hsecond =>
          h.same first (hmem hfirst) second (hmem hsecond) }
  | none =>
      rw [claim_of_no_slot hslot]
      -- no lookup has had the new cell, and none since the last clear was of this key
      have hcell : ∀ ticket ∈ tickets, ticket.cell ≠ cache.cells.size := fun ticket hticket =>
        Nat.ne_of_lt (h.made ticket hticket)
      have hkey : ∀ ticket ∈ tickets, ticket.key = key → ticket.era ≠ clears := by
        rintro ticket hticket rfl hera
        rw [h.good ticket hticket hera] at hslot
        cases hslot
      constructor
      · intro other place hother
        rw [Std.HashMap.getElem?_insert] at hother
        split at hother
        · next heq =>
            obtain rfl := LawfulBEq.eq_of_beq heq
            obtain rfl := Option.some.inj hother
            exact List.mem_append_right _ (List.mem_singleton_self _)
        · exact List.mem_append_left _ (h.current other place hother)
      · intro ticket hticket hera
        rw [Std.HashMap.getElem?_insert]
        rcases List.mem_append.mp hticket with hold | hnew
        · have hne : ¬ (key == ticket.key) = true := fun heq =>
            hkey ticket hold (LawfulBEq.eq_of_beq heq).symm hera
          rw [if_neg hne]
          exact h.good ticket hold hera
        · rw [List.mem_singleton.mp hnew]
          simp
      · intro ticket hticket
        rw [Array.size_push]
        rcases List.mem_append.mp hticket with hold | hnew
        · exact Nat.lt_succ_of_lt (h.made ticket hold)
        · rw [List.mem_singleton.mp hnew]
          exact Nat.lt_succ_self _
      · intro ticket hticket
        rcases List.mem_append.mp hticket with hold | hnew
        · exact h.past ticket hold
        · rw [List.mem_singleton.mp hnew]
      · intro first hfirst second hsecond
        rcases List.mem_append.mp hfirst with hfirst | hfirst <;>
          rcases List.mem_append.mp hsecond with hsecond | hsecond
        · exact h.same first hfirst second hsecond
        · rw [List.mem_singleton.mp hsecond]
          exact iff_of_false (hcell first hfirst) fun ⟨hsame, hera⟩ => hkey first hfirst hsame hera
        · rw [List.mem_singleton.mp hfirst]
          exact iff_of_false (hcell second hsecond).symm fun ⟨hsame, hera⟩ =>
            hkey second hsecond hsame.symm hera.symm
        · rw [List.mem_singleton.mp hfirst, List.mem_singleton.mp hsecond]
          simp

/-- Filling a cell keeps the books. -/
theorem store (h : Assigned cache clears tickets) (cell : Nat) (value : V) :
    Assigned (cache.store cell value) clears tickets where
  current := h.current
  good := h.good
  made ticket hticket := by
    rw [size_cells_store]
    exact h.made ticket hticket
  past := h.past
  same := h.same

/-- Clearing keeps the books: no key leads to a cell, and no lookup is of the time that follows. -/
theorem clear (h : Assigned cache clears tickets) : Assigned cache.clear (clears + 1) tickets where
  current key cell hslot := by simp at hslot
  good ticket hticket hera := by
    have hpast := h.past ticket hticket
    omega
  made := h.made
  past ticket hticket := Nat.le_succ_of_le (h.past ticket hticket)
  same := h.same

end Assigned

/-! ## Contents of cells -/

/-- A call is running the computation that fills a cell, or has run it. -/
def fills (cell : Nat) (call : Call ε V) : Bool :=
  call.cell = cell && call.progress.begun?.isSome

/-- What the calls so far say about the cells: a call that has returned a value has it from its
cell, a cell that is being filled is empty, a filled cell has its value from a call, at most one
call fills a cell, and no call began before its lookup or after now. -/
structure Kept (shared : Shared ε V) : Prop where
  value : ∀ call ∈ shared.calls, ∀ value, call.progress.outcome? = some (.ok value) →
    shared.cache.cell? call.cell = some value
  empty : ∀ call ∈ shared.calls, ∀ begun, call.progress = .filling begun →
    shared.cache.cell? call.cell = none
  origin : ∀ cell value, shared.cache.cell? cell = some value →
    ∃ call ∈ shared.calls, call.cell = cell ∧ call.progress.stored? = some value
  once : ∀ cell, shared.calls.countP (fills cell) ≤ 1
  begun : ∀ call ∈ shared.calls, ∀ begun, call.progress.begun? = some begun →
    call.era ≤ begun ∧ begun ≤ shared.clears

/-- What a call's own computation has stored is the value it returns. -/
theorem outcome?_of_stored? {progress : Progress ε V} {value : V}
    (h : progress.stored? = some value) : progress.outcome? = some (.ok value) := by
  cases progress with
  | filled begun stored =>
      obtain rfl := Option.some.inj h
      rfl
  | waiting | filling | failed | found => cases h

/-- A call that has filled its cell did so once it had begun. -/
theorem begun?_of_stored? {progress : Progress ε V} {value : V}
    (h : progress.stored? = some value) : progress.begun?.isSome = true := by
  cases progress with
  | filled begun stored => rfl
  | waiting | filling | failed | found => cases h

/-- Of the calls of a list with one replaced, each is the new one or was there before. -/
theorem eq_or_mem_of_replaced {β : Type} {before after : List β} {new other : β} (old : β)
    (h : other ∈ before ++ new :: after) : other = new ∨ other ∈ before ++ old :: after := by
  simp only [List.mem_append, List.mem_cons] at h ⊢
  tauto

namespace Kept

/-- Before any call no cell is filled. -/
theorem initial : Kept (start : Shared ε V) where
  value := nofun
  empty := nofun
  origin cell value h := by simp [start, Cache.empty, cell?] at h
  once cell := Nat.zero_le 1
  begun := nofun

/-- A lookup changes nothing in the cells. -/
theorem lookUp {shared : Shared ε V} (h : Kept shared) (key : String) :
    Kept (shared.lookUp key) where
  value call hcall value hvalue := by
    rcases List.mem_append.mp hcall with hold | hnew
    · exact (cell?_claim key _).trans (h.value call hold value hvalue)
    · rw [List.mem_singleton.mp hnew] at hvalue
      cases hvalue
  empty call hcall begun hfilling := by
    rcases List.mem_append.mp hcall with hold | hnew
    · exact (cell?_claim key _).trans (h.empty call hold begun hfilling)
    · rw [List.mem_singleton.mp hnew] at hfilling
      cases hfilling
  origin cell value hcell := by
    obtain ⟨call, hcall, horigin⟩ := h.origin cell value ((cell?_claim key cell).symm.trans hcell)
    exact ⟨call, List.mem_append_left _ hcall, horigin⟩
  once cell := by
    simpa [Shared.lookUp, fills, Progress.begun?] using h.once cell
  begun call hcall begun hbegun := by
    rcases List.mem_append.mp hcall with hold | hnew
    · exact h.begun call hold begun hbegun
    · rw [List.mem_singleton.mp hnew] at hbegun
      cases hbegun

/-- Clearing changes nothing in the cells. -/
theorem clear {shared : Shared ε V} (h : Kept shared) : Kept shared.clear where
  value := h.value
  empty := h.empty
  origin := h.origin
  once := h.once
  begun call hcall begun hbegun :=
    (h.begun call hcall begun hbegun).imp_right Nat.le_succ_of_le

section Actions

variable {clears : Nat} {before after : List (Call ε V)} {cache cache' : Cache V}
  {call : Call ε V} {event : Event ε V} {progress : Progress ε V}

/-- No two calls fill one cell. -/
theorem not_fills (h : Kept ⟨cache, clears, before ++ call :: after⟩)
    (hcall : call.progress.begun?.isSome = true) {other : Call ε V}
    (hother : other ∈ before ++ after) (hcell : other.cell = call.cell) :
    other.progress.begun? = none := by
  by_contra hbegun
  have hfills : fills call.cell other = true := by
    simp [fills, hcell, Option.isSome_iff_ne_none.mpr hbegun]
  have hself : fills call.cell call = true := by simp [fills, hcall]
  have honce := h.once call.cell
  have hpos : 0 < (before ++ after).countP (fills call.cell) :=
    List.countP_pos_iff.mpr ⟨other, hother, hfills⟩
  simp only [List.countP_append, List.countP_cons, hself, if_true] at honce hpos
  omega

/-- A call that changes no cell keeps the books if what it comes to fits its cell. -/
theorem replace (h : Kept ⟨cache, clears, before ++ call :: after⟩)
    (hvalue : ∀ value, progress.outcome? = some (.ok value) →
      cache.cell? call.cell = some value)
    (hempty : ∀ begun, progress = .filling begun → cache.cell? call.cell = none)
    (hstored : call.progress.stored? = none)
    (honce : ∀ cell, (before ++ { call with progress } :: after).countP (fills cell) ≤ 1)
    (hbegun : ∀ begun, progress.begun? = some begun → call.era ≤ begun ∧ begun ≤ clears) :
    Kept ⟨cache, clears, before ++ { call with progress } :: after⟩ where
  value other hother value hother' := by
    rcases eq_or_mem_of_replaced call hother with rfl | hold
    · exact hvalue value hother'
    · exact h.value other hold value hother'
  empty other hother begun hfilling := by
    rcases eq_or_mem_of_replaced call hother with rfl | hold
    · exact hempty begun hfilling
    · exact h.empty other hold begun hfilling
  origin cell value hcell := by
    obtain ⟨other, hother, hsame, horigin⟩ := h.origin cell value hcell
    rcases eq_or_mem_of_replaced { call with progress } hother with rfl | hnew
    · rw [hstored] at horigin
      cases horigin
    · exact ⟨other, hnew, hsame, horigin⟩
  once := honce
  begun other hother begun hother' := by
    rcases eq_or_mem_of_replaced call hother with rfl | hold
    · exact hbegun begun hother'
    · exact h.begun other hold begun hother'

/-- A call that has not begun may do so if its cell is empty and no other call is filling it. -/
theorem once_of_begin (h : Kept ⟨cache, clears, before ++ call :: after⟩)
    (hempty : cache.cell? call.cell = none)
    (hidle : Idle ⟨cache, clears, before ++ call :: after⟩ call.cell) (cell : Nat) :
    (before ++ { call with progress := .filling clears } :: after).countP (fills cell) ≤ 1 := by
  have honce := h.once cell
  simp only [List.countP_append, List.countP_cons] at honce ⊢
  by_cases hcell : call.cell = cell
  · -- whoever has filled the cell would have left its value in it
    have hnone : (before ++ after).countP (fills cell) = 0 := by
      refine List.countP_eq_zero.mpr fun other hother hfills => ?_
      have hmem : other ∈ before ++ call :: after := by
        simp only [List.mem_append, List.mem_cons] at hother ⊢
        tauto
      simp only [fills, Bool.and_eq_true, decide_eq_true_eq] at hfills
      obtain ⟨hsame, hbegun⟩ := hfills
      cases hprogress : other.progress with
      | filling begun => exact hidle other hmem (hsame.trans hcell.symm) begun hprogress
      | filled begun value =>
          have hvalue := h.value other hmem value (by rw [hprogress]; rfl)
          rw [hsame.trans hcell.symm, hempty] at hvalue
          cases hvalue
      | waiting | failed | found =>
          rw [hprogress] at hbegun
          cases hbegun
    rw [List.countP_append] at hnone
    split <;> omega
  · simp only [fills, hcell, decide_false, Bool.false_and, Bool.false_eq_true, if_false] at honce ⊢
    exact honce

/-- A call that fills its cell keeps the books. -/
theorem succeed (h : Kept ⟨cache, clears, before ++ call :: after⟩) {begun : Nat}
    (hfilling : call.progress = .filling begun) (hmade : call.cell < cache.cells.size) (value : V) :
    Kept ⟨cache.store call.cell value, clears,
      before ++ { call with progress := .filled begun value } :: after⟩ := by
  have hself : call ∈ before ++ call :: after := by simp
  have hbegan : call.progress.begun?.isSome = true := by rw [hfilling]; rfl
  have hempty : cache.cell? call.cell = none := h.empty call hself begun hfilling
  have hcell : (cache.store call.cell value).cell? call.cell = some value :=
    cell?_store_self hmade value
  -- the cell was empty, so all that holds of filled cells is about other cells
  have hkeep : ∀ {cell seen}, cache.cell? cell = some seen →
      (cache.store call.cell value).cell? cell = some seen := by
    intro cell seen hseen
    have hne : cell ≠ call.cell := by
      rintro rfl
      rw [hempty] at hseen
      cases hseen
    rw [cell?_store_of_ne hne, hseen]
  constructor
  · intro other hother seen hseen
    rcases eq_or_mem_of_replaced call hother with rfl | hold
    · cases hseen
      exact hcell
    · exact hkeep (h.value other hold seen hseen)
  · intro other hother begun' hother'
    by_cases hsame : other.cell = call.cell
    · simp only [List.mem_append, List.mem_cons] at hother
      rcases hother with hbefore | rfl | hafter
      · have hnone := h.not_fills hbegan (List.mem_append_left after hbefore) hsame
        rw [hother'] at hnone
        cases hnone
      · cases hother'
      · have hnone := h.not_fills hbegan (List.mem_append_right before hafter) hsame
        rw [hother'] at hnone
        cases hnone
    · rcases eq_or_mem_of_replaced call hother with rfl | hold
      · exact absurd rfl hsame
      · exact (cell?_store_of_ne hsame value).trans (h.empty other hold begun' hother')
  · intro cell seen hseen
    by_cases hsame : cell = call.cell
    · subst hsame
      obtain rfl := Option.some.inj (hcell.symm.trans hseen)
      exact ⟨_, List.mem_append_right _ List.mem_cons_self, rfl, rfl⟩
    · rw [cell?_store_of_ne hsame] at hseen
      obtain ⟨other, hother, hother', horigin⟩ := h.origin cell seen hseen
      rcases eq_or_mem_of_replaced { call with progress := .filled begun value } hother with
        rfl | hnew
      · exact absurd hother'.symm hsame
      · exact ⟨other, hnew, hother', horigin⟩
  · intro cell
    have honce := h.once cell
    simp only [List.countP_append, List.countP_cons, fills, hfilling] at honce ⊢
    exact honce
  · intro other hother begun' hother'
    rcases eq_or_mem_of_replaced call hother with rfl | hold
    · cases hother'
      exact h.begun call hself begun (by rw [hfilling]; rfl)
    · exact h.begun other hold begun' hother'

/-- A step of a call keeps the books. -/
theorem act (h : Kept ⟨cache, clears, before ++ call :: after⟩)
    (hmade : call.cell < cache.cells.size) (hpast : call.era ≤ clears)
    (haction : Action ⟨cache, clears, before ++ call :: after⟩ call event progress cache') :
    Kept ⟨cache', clears, before ++ { call with progress } :: after⟩ := by
  cases haction with
  | begin hwaiting hempty hidle =>
      refine h.replace nofun (fun _ _ => hempty) (by rw [hwaiting]; rfl)
        (h.once_of_begin hempty hidle) ?_
      rintro begun ⟨⟩
      exact ⟨hpast, Nat.le_refl _⟩
  | succeed begun value hfilling => exact h.succeed hfilling hmade value
  | fail begun error hfilling =>
      refine h.replace nofun nofun (by rw [hfilling]; rfl) (fun cell => ?_) nofun
      have honce := h.once cell
      simp only [List.countP_append, List.countP_cons, fills, Progress.begun?] at honce ⊢
      simp only [Option.isSome_none, Bool.and_false, Bool.false_eq_true, if_false]
      omega
  | find value hwaiting hseen =>
      refine h.replace ?_ nofun (by rw [hwaiting]; rfl) (fun cell => ?_) nofun
      · rintro found ⟨⟩
        exact hseen
      · have honce := h.once cell
        simp only [List.countP_append, List.countP_cons, fills, hwaiting, Progress.begun?]
          at honce ⊢
        exact honce

end Actions

end Kept

/-! ## Every order of the callers -/

/-- What holds of a shared cache at every moment. -/
structure Sound (shared : Shared ε V) : Prop where
  assigned : Assigned shared.cache shared.clears (shared.calls.map Call.toTicket)
  kept : Kept shared

/-- A step of a call leaves all lookups as they were. -/
theorem tickets_act (before after : List (Call ε V)) (call : Call ε V) (progress : Progress ε V) :
    (before ++ { call with progress } :: after).map Call.toTicket =
      (before ++ call :: after).map Call.toTicket := by
  simp

/-- A step of a call leaves the books on keys in order. -/
theorem Assigned.act {shared : Shared ε V} {call : Call ε V} {event : Event ε V}
    {progress : Progress ε V} {cache : Cache V} {tickets : List Ticket}
    (h : Assigned shared.cache shared.clears tickets)
    (haction : Action shared call event progress cache) :
    Assigned cache shared.clears tickets := by
  cases haction with
  | succeed begun value => exact h.store call.cell value
  | begin | fail | find => exact h

/-- The books stay in order with every step. -/
theorem Sound.step {shared shared' : Shared ε V} {event : Event ε V} (h : Sound shared)
    (hstep : Step shared event shared') : Sound shared' := by
  cases hstep with
  | lookUp _ key =>
      refine ⟨?_, h.kept.lookUp key⟩
      have hassigned := h.assigned.lookUp key
      simpa [Shared.lookUp] using hassigned
  | @act clears before after cache cache' call event progress haction =>
      have hticket : call.toTicket ∈ (before ++ call :: after).map Call.toTicket :=
        List.mem_map_of_mem (by simp)
      refine ⟨?_, h.kept.act (h.assigned.made _ hticket) (h.assigned.past _ hticket) haction⟩
      rw [tickets_act]
      exact h.assigned.act haction
  | get | count => exact h
  | clear => exact ⟨h.assigned.clear, h.kept.clear⟩

/-- The books are in order in every state that callers can bring a cache to. -/
theorem Reachable.sound {shared : Shared ε V} (h : Reachable shared) : Sound shared := by
  induction h with
  | refl => exact ⟨.initial, .initial⟩
  | tail _ hstep ih =>
      obtain ⟨event, hstep⟩ := hstep
      exact ih.step hstep

/-! ## What callers see -/

namespace Sound

variable {shared shared' : Shared ε V}

/-- Calls that have looked up the same key between the same two clears return the same value. -/
theorem value_unique (h : Sound shared) {first second : Call ε V} (hfirst : first ∈ shared.calls)
    (hsecond : second ∈ shared.calls) (hkey : first.key = second.key)
    (hera : first.era = second.era) {value other : V}
    (hvalue : first.progress.outcome? = some (.ok value))
    (hother : second.progress.outcome? = some (.ok other)) : value = other := by
  have hcell : first.cell = second.cell :=
    (h.assigned.same _ (List.mem_map_of_mem hfirst) _ (List.mem_map_of_mem hsecond)).mpr
      ⟨hkey, hera⟩
  have hkept := h.kept.value first hfirst value hvalue
  rw [hcell, h.kept.value second hsecond other hother] at hkept
  exact (Option.some.inj hkept).symm

/-- A key has the value that a call has stored that looked it up after the last clear. -/
theorem get?_eq_some_iff (h : Sound shared) {key : String} {value : V} :
    shared.cache.get? key = some value ↔
      ∃ call ∈ shared.calls, call.key = key ∧ call.era = shared.clears ∧
        call.progress.stored? = some value := by
  rw [Cache.get?_eq_some_iff]
  constructor
  · rintro ⟨cell, hslot, hcell⟩
    obtain ⟨call, hcall, rfl, hstored⟩ := h.kept.origin cell value hcell
    -- the lookup of the key since the last clear and that of the call have the same cell
    have hsame := (h.assigned.same _ (List.mem_map_of_mem hcall) _
      (h.assigned.current key call.cell hslot)).mp rfl
    exact ⟨call, hcall, hsame.1, hsame.2, hstored⟩
  · rintro ⟨call, hcall, rfl, hera, hstored⟩
    exact ⟨call.cell, h.assigned.good _ (List.mem_map_of_mem hcall) hera,
      h.kept.value call hcall value (outcome?_of_stored? hstored)⟩

/-- A call whose computation began before the last clear fills a cell that no key leads to. -/
theorem detached (h : Sound shared) {call : Call ε V} (hcall : call ∈ shared.calls) {begun : Nat}
    (hbegun : call.progress.begun? = some begun) (hclear : begun < shared.clears) (key : String) :
    shared.cache.slots[key]? ≠ some call.cell := by
  have hera := (h.kept.begun call hcall begun hbegun).1
  exact h.assigned.detached (List.mem_map_of_mem hcall) (Nat.lt_of_le_of_lt hera hclear) key

end Sound

/-- What becomes of a shared cache when the computation of a call fails. -/
structure FailedBy (shared : Shared ε V) (call : Call ε V) (error : ε) (shared' : Shared ε V) :
    Prop where
  /-- The call returns the error. -/
  returned : { call with progress := .failed error } ∈ shared'.calls
  /-- Nothing that the cache shows changes. -/
  unchanged : shared'.cache = shared.cache
  /-- The cell of the call is empty. -/
  empty : shared'.cache.cell? call.cell = none
  /-- So the key of the call is empty, unless it was looked up before the last clear: then its cell
  is not that of the key any more. -/
  unseen : call.era = shared'.clears → shared'.cache.get? call.key = none
  /-- Calls that wait for the cell may run their own computation at once. -/
  retry : ∀ next ∈ shared'.calls, next.cell = call.cell → next.progress = .waiting →
    ∃ shared'', Step shared' (.begin next) shared''
  /-- So may a call that looks up the key now. -/
  newcomer : call.era = shared'.clears →
    ∃ next shared'', (shared'.lookUp call.key).calls = shared'.calls ++ [next] ∧
      Step (shared'.lookUp call.key) (.begin next) shared''

/-- A call that looks up a key may begin if the cell of the key is empty and no call is filling
it. -/
theorem exists_begin_of_lookUp (shared : Shared ε V) (key : String)
    (hempty : shared.cache.cell? (shared.cache.claim key).1 = none)
    (hidle : shared.Idle (shared.cache.claim key).1) :
    ∃ next shared', (shared.lookUp key).calls = shared.calls ++ [next] ∧
      Step (shared.lookUp key) (.begin next) shared' := by
  let next : Call ε V := ⟨⟨key, (shared.cache.claim key).1, shared.clears⟩, .waiting⟩
  have hnext : next ∈ (shared.lookUp key).calls :=
    List.mem_append_right _ (List.mem_singleton_self _)
  have hidle' : (shared.lookUp key).Idle next.cell := by
    intro call hcall hsame begun
    rcases List.mem_append.mp hcall with hold | hnew
    · exact hidle call hold hsame begun
    · rw [List.mem_singleton.mp hnew]
      exact nofun
  obtain ⟨shared', hstep⟩ :=
    exists_step_of_action hnext (.begin rfl ((cell?_claim key _).trans hempty) hidle')
  exact ⟨next, shared', rfl, hstep⟩

/-- A computation that fails leaves its cell empty and free for the next one. -/
theorem Sound.failedBy {shared shared' : Shared ε V} (h : Sound shared) {call : Call ε V}
    {error : ε} (hstep : Step shared (.fail call error) shared') :
    FailedBy shared call error shared' := by
  cases hstep with
  | @act clears before after cache cache' call event progress haction =>
      cases haction with
      | fail begun _ hfilling =>
          have hself : call ∈ before ++ call :: after := by simp
          have hempty : cache.cell? call.cell = none := h.kept.empty call hself begun hfilling
          have hidle : Idle
              ⟨cache, clears, before ++ { call with progress := .failed error } :: after⟩
              call.cell := by
            intro other hother hsame begun' hother'
            simp only [List.mem_append, List.mem_cons] at hother
            have hbegan : call.progress.begun?.isSome = true := by rw [hfilling]; rfl
            rcases hother with hbefore | rfl | hafter
            · have hnone := h.kept.not_fills hbegan (List.mem_append_left after hbefore) hsame
              rw [hother'] at hnone
              cases hnone
            · cases hother'
            · have hnone := h.kept.not_fills hbegan (List.mem_append_right before hafter) hsame
              rw [hother'] at hnone
              cases hnone
          have hslot : call.era = clears → cache.slots[call.key]? = some call.cell :=
            h.assigned.good _ (List.mem_map_of_mem hself)
          refine ⟨by simp, rfl, hempty, ?_, ?_, ?_⟩
          · intro hera
            simp only [get?, hslot hera, Option.bind_some, hempty]
          · intro next hnext hcell hwaiting
            refine exists_step_of_action hnext (.begin hwaiting ?_ ?_)
            · rw [hcell]
              exact hempty
            · rw [hcell]
              exact hidle
          · intro hera
            -- the key still leads to the cell of the call that has failed
            have hclaim : cache.claim call.key = (call.cell, cache) := claim_of_slot (hslot hera)
            refine exists_begin_of_lookUp _ call.key ?_ ?_
            · rw [hclaim]
              exact hempty
            · rw [hclaim]
              exact hidle

/-- In every state that callers can bring a cache to: a cell has been filled at most once; calls
that have looked up the same key between the same two clears return the same value; a computation
that fails leaves its key empty and lets the next caller compute; a computation that began before
the last clear fills a cell that shows in no key and no count; what `get?` shows for a key was
stored by a call that looked the key up and began after the last clear, and all that such calls have
stored shows; and `size` is the number of keys that lead to a filled cell. A call that is not
disturbed does what `getOrFill` does. -/
theorem fills_once_in_every_order {shared : Shared ε V} (h : Reachable shared) :
    (∀ cell, shared.calls.countP
      (fun call => call.cell = cell && call.progress.stored?.isSome) ≤ 1) ∧
    (∀ first ∈ shared.calls, ∀ second ∈ shared.calls,
      first.key = second.key → first.era = second.era → ∀ value other,
        first.progress.outcome? = some (.ok value) → second.progress.outcome? = some (.ok other) →
        value = other) ∧
    (∀ call error shared', Step shared (.fail call error) shared' →
      FailedBy shared call error shared') ∧
    (∀ call ∈ shared.calls, ∀ begun, call.progress.begun? = some begun → begun < shared.clears →
      (∀ key : String, shared.cache.slots[key]? ≠ some call.cell) ∧
      ∀ value, (shared.cache.store call.cell value).get? = shared.cache.get? ∧
        (shared.cache.store call.cell value).size = shared.cache.size) ∧
    (∀ (key : String) seen shared', Step shared (.get key seen) shared' → shared' = shared ∧
      ∀ value, seen = some value ↔ ∃ call ∈ shared.calls, call.key = key ∧
        call.era = shared.clears ∧ call.progress = .filled shared.clears value) ∧
    (∀ seen shared', Step shared (.count seen) shared' → shared' = shared ∧
      {key : String | ∃ cell value, shared.cache.slots[key]? = some cell ∧
        shared.cache.cell? cell = some value}.Finite ∧
      seen = {key : String | ∃ cell value, shared.cache.slots[key]? = some cell ∧
        shared.cache.cell? cell = some value}.ncard) ∧
    ∀ key result, shared.Idle (shared.cache.claim key).1 → ∃ progress, Steps shared
        ⟨((getOrFill direct key (known result)).run shared.cache).2, shared.clears,
          shared.calls ++ [⟨⟨key, (shared.cache.claim key).1, shared.clears⟩, progress⟩]⟩ ∧
      progress.outcome? = some ((getOrFill direct key (known result)).run shared.cache).1 := by
  have hsound := h.sound
  have hkeys : {key : String | ∃ cell value, shared.cache.slots[key]? = some cell ∧
      shared.cache.cell? cell = some value} = {key | (shared.cache.get? key).isSome} := by
    ext key
    simp only [Set.mem_ofPred_eq, Option.isSome_iff_exists, Cache.get?_eq_some_iff]
    exact exists_comm
  refine ⟨?_, ?_, ?_, ?_, ?_, ?_, fun key result => steps_of_getOrFill shared key result⟩
  · intro cell
    refine Nat.le_trans (List.countP_mono_left fun call _ hstored => ?_) (hsound.kept.once cell)
    simp only [fills, Bool.and_eq_true] at hstored ⊢
    obtain ⟨value, hvalue⟩ := Option.isSome_iff_exists.mp hstored.2
    exact ⟨hstored.1, begun?_of_stored? hvalue⟩
  · intro first hfirst second hsecond hkey hera value other hvalue hother
    exact hsound.value_unique hfirst hsecond hkey hera hvalue hother
  · intro call error shared' hstep
    exact hsound.failedBy hstep
  · intro call hcall begun hbegun hclear
    have hdetached := hsound.detached hcall hbegun hclear
    have hget : ∀ value, (shared.cache.store call.cell value).get? = shared.cache.get? :=
      fun value => funext fun key => get?_store_of_ne (hdetached key) value
    refine ⟨hdetached, fun value => ⟨hget value, ?_⟩⟩
    rw [(size_eq_ncard _).2, (size_eq_ncard shared.cache).2, hget value]
  · intro key seen shared' hstep
    cases hstep with
    | act _ _ _ haction => cases haction
    | get =>
        refine ⟨rfl, fun value => hsound.get?_eq_some_iff.trans ?_⟩
        refine exists_congr fun call => and_congr_right fun hcall => and_congr_right fun _ =>
          and_congr_right fun hera => ?_
        cases hprogress : call.progress with
        | filled begun stored =>
            -- a call that has looked up the key since the last clear began since then
            obtain ⟨hle, hge⟩ := hsound.kept.begun call hcall begun (by rw [hprogress]; rfl)
            have hbegun : begun = shared.clears := by omega
            simp [Progress.stored?, hbegun]
        | waiting | filling | failed | found => simp [Progress.stored?]
  · intro seen shared' hstep
    rw [hkeys]
    cases hstep with
    | act _ _ _ haction => cases haction
    | count => exact ⟨rfl, size_eq_ncard shared.cache⟩

/-- A cache after a clear and one more lookup of its only key. -/
def clearedOnce (first second : Option Nat) : Cache Nat :=
  ⟨(∅ : Std.HashMap String Nat).insert "a" 1, #[first, second]⟩

/-- The lookup of the key in such a cache. -/
theorem lookUp_clearedOnce (first second : Option Nat) (calls : List (Call String Nat)) :
    lookUp ⟨clearedOnce first second, 1, calls⟩ "a" =
      ⟨clearedOnce first second, 1, calls ++ [⟨⟨"a", 1, 1⟩, .waiting⟩]⟩ := by
  have hclaim : (clearedOnce first second).claim "a" = (1, clearedOnce first second) :=
    claim_of_slot (by simp [clearedOnce])
  rw [lookUp, hclaim]

/-- A state in which the first of four calls has filled a cell that was cleared away meanwhile, the
second has failed, the third has filled the cell that the key leads to now, and the fourth has found
it. -/
def afterClear : Shared String Nat :=
  ⟨clearedOnce (some 7) (some 8), 1,
    [⟨⟨"a", 0, 0⟩, .filled 0 7⟩, ⟨⟨"a", 1, 1⟩, .failed "no"⟩, ⟨⟨"a", 1, 1⟩, .filled 1 8⟩,
      ⟨⟨"a", 1, 1⟩, .found 8⟩]⟩

/-- Callers bring an empty cache to this state: the first call begins, the cache is cleared, the
second begins, the first succeeds, the second fails, and the others follow. -/
theorem reachable_afterClear : Reachable afterClear := by
  have hbegun : Reachable (ε := String) (V := Nat)
      ⟨⟨(∅ : Std.HashMap String Nat).insert "a" 0, #[none]⟩, 0,
        [⟨⟨"a", 0, 0⟩, .filling 0⟩]⟩ := by
    have hlook := Step.lookUp (start : Shared String Nat) "a"
    rw [lookUp, claim_of_no_slot (by simp [start, Cache.empty])] at hlook
    exact (Relation.ReflTransGen.single ⟨_, hlook⟩).tail
      ⟨_, .act 0 [] [] (.begin rfl rfl (by simp [Idle]))⟩
  have hcleared : Reachable (ε := String)
      ⟨clearedOnce none none, 1,
        [⟨⟨"a", 0, 0⟩, .filling 0⟩, ⟨⟨"a", 1, 1⟩, .waiting⟩]⟩ := by
    have hclear := hbegun.tail ⟨_, .clear _⟩
    have hlook := Step.lookUp
      (⟨⟨∅, #[none]⟩, 1, [⟨⟨"a", 0, 0⟩, .filling 0⟩]⟩ : Shared String Nat) "a"
    rw [lookUp, claim_of_no_slot (by simp)] at hlook
    exact hclear.tail ⟨_, hlook⟩
  have hfailed : Reachable (ε := String)
      ⟨clearedOnce (some 7) none, 1,
        [⟨⟨"a", 0, 0⟩, .filled 0 7⟩, ⟨⟨"a", 1, 1⟩, .failed "no"⟩]⟩ :=
    ((hcleared.tail ⟨_, .act 1 [_] [] (.begin rfl rfl (by simp [Idle]))⟩).tail
      ⟨_, .act 1 [] [_] (.succeed 0 7 rfl)⟩).tail ⟨_, .act 1 [_] [] (.fail 1 "no" rfl)⟩
  have hfilled : Reachable (ε := String)
      ⟨clearedOnce (some 7) (some 8), 1,
        [⟨⟨"a", 0, 0⟩, .filled 0 7⟩, ⟨⟨"a", 1, 1⟩, .failed "no"⟩, ⟨⟨"a", 1, 1⟩, .filled 1 8⟩]⟩ := by
    have hlook := hfailed.tail ⟨_, .lookUp _ "a"⟩
    rw [lookUp_clearedOnce] at hlook
    exact (hlook.tail ⟨_, .act 1 [_, _] [] (.begin rfl rfl (by simp [Idle]))⟩).tail
      ⟨_, .act 1 [_, _] [] (.succeed 1 8 rfl)⟩
  have hlook := hfilled.tail ⟨_, .lookUp _ "a"⟩
  rw [lookUp_clearedOnce] at hlook
  exact hlook.tail ⟨_, .act 1 [_, _, _] [] (.find 8 rfl rfl)⟩

/-- Of the two values that have been computed for the key, only the one that was begun after the
clear shows, and one key is counted. -/
theorem later_value_shows_after_clear : Reachable afterClear ∧
    afterClear.cache.get? "a" = some 8 ∧ afterClear.cache.size = 1 := by
  obtain ⟨-, -, -, -, hget, hcount, -⟩ := fills_once_in_every_order reachable_afterClear
  have hshown : ∀ key value, afterClear.cache.get? key = some value ↔ key = "a" ∧ value = 8 := by
    intro key value
    rw [(hget key _ afterClear (.get _ key)).2 value]
    simp [afterClear, eq_comm]
  refine ⟨reachable_afterClear, (hshown "a" 8).mpr ⟨rfl, rfl⟩, ?_⟩
  rw [(hcount _ afterClear (.count _)).2.2, Set.ncard_eq_one]
  refine ⟨"a", Set.ext fun key => ?_⟩
  simp only [Set.mem_ofPred_eq, exists_comm, ← Cache.get?_eq_some_iff, hshown,
    Set.mem_singleton_iff]
  simp

end SingingVoice.Cache.Shared
