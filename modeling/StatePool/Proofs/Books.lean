import StatePool.Proofs.Policy
import StatePool.Proofs.Sections

/-!
The books of a pool: its counters agree with where its states are.

Every state is in one place at a time: it waits in the pool, it is checked out, or it never belonged
to the pool.  The statements here say that each section keeps the books, for holders that leave the
serving mark of their states alone.
-/

namespace StatePool

structure Books (site : Site) (held : List LuaState) (out : List StateId)
    (strangers : List LuaState) : Prop where
  seeds_le : 0 < site.pool.config.capacity →
    site.pool.config.seeds ≤ site.pool.config.capacity
  length_eq : site.pool.length = site.pool.idle.length + site.pool.serving
  serving_eq : site.pool.serving = out.length
  length_le : 0 < site.pool.config.capacity → site.pool.length ≤ site.pool.config.capacity
  /-- No state is in two places. -/
  once : ∀ id, (site.pool.idle.map (·.id)).count id + out.count id +
    (strangers.map (·.id)).count id ≤ 1
  /-- What callers hold is checked out, and no two of them hold the same state. -/
  held_once : ∀ id, (held.map (·.id)).count id ≤ out.count id
  idle_born : ∀ state ∈ site.pool.idle, state.id.number < site.world.states
  out_born : ∀ id ∈ out, id.number < site.world.states
  strangers_born : ∀ state ∈ strangers, state.id.number < site.world.states
  idle_rests : ∀ state ∈ site.pool.idle, state.serving = false ∧ state.closed = false
  held_lent : ∀ state ∈ held, state.Lent
  /-- A drain sleeps only while there is a checkout whose end will wake it. -/
  parked_serving : site.pool.parked = true → 0 < site.pool.serving

namespace Books

variable {pool : Pool} {world next : World} {site : Site} {held : List LuaState}
  {out : List StateId} {strangers : List LuaState}

/-- An id that was not given out before is nowhere. -/
theorem count_eq_zero (books : Books ⟨pool, world⟩ held out strangers) (id : StateId)
    (h : world.states ≤ id.number) :
    (pool.idle.map (·.id)).count id = 0 ∧ out.count id = 0 ∧
      (strangers.map (·.id)).count id = 0 := by
  refine ⟨?_, ?_, ?_⟩
  · rw [List.count_eq_zero]
    intro hmem
    obtain ⟨state, hstate, rfl⟩ := List.mem_map.1 hmem
    have := books.idle_born state hstate
    simp only at this
    omega
  · rw [List.count_eq_zero]
    intro hmem
    have := books.out_born id hmem
    simp only at this
    omega
  · rw [List.count_eq_zero]
    intro hmem
    obtain ⟨state, hstate, rfl⟩ := List.mem_map.1 hmem
    have := books.strangers_born state hstate
    simp only at this
    omega

theorem out_of_held (books : Books site held out strangers) {state : LuaState}
    (h : state ∈ held) : state.id ∈ out := by
  have hcount := books.held_once state.id
  have hpos : 0 < (held.map (·.id)).count state.id := List.count_pos_iff.2 (List.mem_map_of_mem h)
  exact List.count_pos_iff.1 (Nat.lt_of_lt_of_le hpos hcount)

theorem idle_apart (books : Books site held out strangers) {state : LuaState}
    (h : state ∈ site.pool.idle) : state.id ∉ out ∧ state.id ∉ strangers.map (·.id) := by
  have honce := books.once state.id
  have hpos : 0 < (site.pool.idle.map (·.id)).count state.id :=
    List.count_pos_iff.2 (List.mem_map_of_mem h)
  constructor <;> rw [← List.count_eq_zero] <;> omega

theorem held_apart (books : Books site held out strangers) {state : LuaState}
    (h : state ∈ held) : state.id ∉ site.pool.idle.map (·.id) := by
  intro hmem
  obtain ⟨other, hother, heq⟩ := List.mem_map.1 hmem
  exact (books.idle_apart hother).1 (heq ▸ books.out_of_held h)

theorem length_of_quiet (books : Books site held out strangers) (h : site.pool.serving = 0) :
    site.pool.length = site.pool.idle.length := by
  rw [books.length_eq, h, Nat.add_zero]

theorem idle_nodup (books : Books site held out strangers) :
    (site.pool.idle.map (·.id)).Nodup := by
  rw [List.nodup_iff_count]
  intro id
  have honce := books.once id
  omega

/-! ### The world around the pool -/

theorem withWorld (books : Books ⟨pool, world⟩ held out strangers)
    (h : world.states ≤ next.states) : Books ⟨pool, next⟩ held out strangers :=
  { books with
    idle_born := fun state hstate => Nat.lt_of_lt_of_le (books.idle_born state hstate) h
    out_born := fun id hid => Nat.lt_of_lt_of_le (books.out_born id hid) h
    strangers_born := fun state hstate =>
      Nat.lt_of_lt_of_le (books.strangers_born state hstate) h }

/-- A caller builds a state. -/
theorem addStranger (books : Books ⟨pool, world⟩ held out strangers) {state : LuaState}
    (newborn : state.Newborn world) (hstates : next.states = world.states + 1) :
    Books ⟨pool, next⟩ held out (state :: strangers) := by
  have later : Books ⟨pool, next⟩ held out strangers := books.withWorld (by omega)
  have hfresh := books.count_eq_zero ⟨world.states⟩ (Nat.le_refl _)
  refine { later with once := fun id => ?_, strangers_born := ?_ }
  · have := books.once id
    simp only [List.map_cons, newborn.id_eq, List.count_cons, beq_iff_eq] at this ⊢
    split
    · next h =>
        subst h
        omega
    · omega
  · intro other hother
    rcases List.mem_cons.1 hother with rfl | hother
    · simp [newborn.id_eq, hstates]
    · exact later.strangers_born other hother

/-- A caller does something to a state that it built, or drops it. -/
theorem replaceStrangers (books : Books site held out strangers) {others : List LuaState}
    (h : ∀ id, (others.map (·.id)).count id ≤ (strangers.map (·.id)).count id) :
    Books site held out others := by
  refine { books with once := fun id => ?_, strangers_born := fun state hstate => ?_ }
  · have := books.once id
    have := h id
    omega
  · have hpos : 0 < (others.map (·.id)).count state.id :=
      List.count_pos_iff.2 (List.mem_map_of_mem hstate)
    have hmem : state.id ∈ strangers.map (·.id) :=
      List.count_pos_iff.1 (Nat.lt_of_lt_of_le hpos (h state.id))
    obtain ⟨other, hother, heq⟩ := List.mem_map.1 hmem
    exact heq ▸ books.strangers_born other hother

/-- A holder does something to a state. -/
theorem replaceHeld (books : Books site held out strangers) {others : List LuaState}
    (h : ∀ id, (others.map (·.id)).count id ≤ (held.map (·.id)).count id)
    (hlent : ∀ state ∈ others, state.Lent) : Books site others out strangers :=
  { books with
    held_once := fun id => Nat.le_trans (h id) (books.held_once id)
    held_lent := hlent }

/-- A holder that leaves the serving mark alone does something to a state. -/
theorem touch (books : Books site held out strangers) {id : StateId} {touch : Touch}
    {state : LuaState} {rest : List LuaState} (hperm : held.Perm (state :: rest))
    (honest : (Action.touch .pool id touch).honest = true) (world : World) :
    Books site ((state.touch world touch).1 :: rest) out strangers := by
  have lent := books.held_lent state (hperm.mem_iff.2 List.mem_cons_self)
  refine books.replaceHeld (fun other => ?_) (List.forall_mem_cons.2 ⟨?_, fun other hother => ?_⟩)
  · rw [List.map_cons, LuaState.id_touch, ← List.map_cons]
    exact Nat.le_of_eq ((hperm.map LuaState.id).count_eq other).symm
  · exact lent.touch honest world
  · exact books.held_lent other (hperm.mem_iff.2 (List.mem_cons_of_mem _ hother))

/-! ### Checking out and parting -/

/-- Moving to another status touches nothing that the books are about. -/
theorem setStatus (books : Books site held out strangers) (target : Status) :
    Books (site.setStatus target) held out strangers := by
  have h := site.pool.setStatus_eq target
  unfold Site.setStatus
  rcases h with h | ⟨-, h⟩
  · rw [h]
    exact books
  · rw [h]
    exact { books with }

theorem setStateOptions (books : Books site held out strangers) (options : StateOptions) :
    Books (site.setStateOptions options) held out strangers :=
  { books with }

theorem lent_of_grant (state : LuaState) (clock : Clock) (hclosed : state.closed = false) :
    (state.setServing clock true).countRequest.Lent :=
  ⟨by simp [LuaState.setServing, LuaState.countRequest, hclosed],
    fun _ => ⟨clock.monotonic, by simp [LuaState.setServing, LuaState.countRequest]⟩⟩

theorem checkOut (books : Books site held out strangers)
    {result : Outcome PoolError LuaState} {after : Site}
    (h : Site.CheckedOut site (result, after)) :
    match result with
    | .ok state => Books after (state :: held) (state.id :: out) strangers
    | _ => Books after held out strangers := by
  cases h with
  | refused haccepts => exact books
  | full hidle hcapacity hlength => exact { books with }
  | failed hstates => exact books.withWorld (Nat.le_of_eq hstates.symm)
  | panicked hfault hstates => exact books.withWorld (Nat.le_of_eq hstates.symm)
  | @reused state idle haccepts hidle =>
      have hrests := books.idle_rests
      have hborn := books.idle_born
      have honce := books.once
      have hlength := books.length_eq
      simp only [hidle, List.mem_cons, forall_eq_or_imp, List.map_cons, List.count_cons,
        List.length_cons] at hrests hborn honce hlength
      exact
        { seeds_le := books.seeds_le
          length_eq := by simp only [Pool.emit]; omega
          serving_eq := by simp [Pool.emit, books.serving_eq]
          length_le := books.length_le
          once := fun id => by
            have := honce id
            simp only [Pool.emit, LuaState.setServing, LuaState.countRequest, List.count_cons]
            omega
          held_once := fun id => by
            have := books.held_once id
            simp only [List.map_cons, List.count_cons]
            omega
          idle_born := hborn.2
          out_born := List.forall_mem_cons.2 ⟨hborn.1, books.out_born⟩
          strangers_born := books.strangers_born
          idle_rests := hrests.2
          held_lent := List.forall_mem_cons.2
            ⟨lent_of_grant state site.world.clock hrests.1.2, books.held_lent⟩
          parked_serving := fun _ => Nat.succ_pos _ }
  | @built state world haccepts hidle hroom newborn hstates =>
      have hfresh := books.count_eq_zero ⟨site.world.states⟩ (Nat.le_refl _)
      have later : Books ⟨site.pool, world⟩ held out strangers := books.withWorld (by omega)
      have hlength := books.length_eq
      exact
        { seeds_le := books.seeds_le
          length_eq := by simp only [Pool.emit]; omega
          serving_eq := by simp [Pool.emit, books.serving_eq]
          length_le := hroom
          once := fun id => by
            have := books.once id
            simp only [Pool.emit, LuaState.setServing, LuaState.countRequest, newborn.id_eq,
              List.count_cons, beq_iff_eq]
            split
            · next h =>
                subst h
                omega
            · omega
          held_once := fun id => by
            have := books.held_once id
            simp only [List.map_cons, List.count_cons]
            omega
          idle_born := later.idle_born
          out_born := List.forall_mem_cons.2
            ⟨by simp [LuaState.setServing, LuaState.countRequest, newborn.id_eq, hstates],
              later.out_born⟩
          strangers_born := later.strangers_born
          idle_rests := books.idle_rests
          held_lent := List.forall_mem_cons.2
            ⟨lent_of_grant state world.clock newborn.closed_eq, books.held_lent⟩
          parked_serving := fun _ => Nat.succ_pos _ }

/-- Whoever parts with a state leaves it behind as checked out. -/
theorem count_rest_le (books : Books site held out strangers) {state : LuaState}
    {rest : List LuaState} (hperm : held.Perm (state :: rest)) (id : StateId) :
    (rest.map (·.id)).count id + (if state.id = id then 1 else 0) ≤ out.count id := by
  have hcount := (hperm.map (·.id)).count_eq id
  have := books.held_once id
  simp only [List.map_cons, List.count_cons, beq_iff_eq] at hcount
  omega

/-- What is held is checked out and does not wait. -/
theorem lent_apart (books : Books site held out strangers) {state : LuaState}
    {rest : List LuaState} (hperm : held.Perm (state :: rest)) :
    state.id ∈ out ∧ state.id ∉ site.pool.idle.map (·.id) := by
  have hheld := hperm.mem_iff.2 List.mem_cons_self
  exact ⟨books.out_of_held hheld, books.held_apart hheld⟩

theorem count_erase_add {state : LuaState} (h : 0 < out.count state.id) (id : StateId) :
    (out.erase state.id).count id + (if state.id = id then 1 else 0) = out.count id := by
  rw [List.count_erase]
  simp only [beq_iff_eq]
  split
  · next heq =>
      subst heq
      omega
  · rfl

theorem kept (books : Books site held out strangers) {state : LuaState} {rest : List LuaState}
    (hperm : held.Perm (state :: rest)) (hstates : next.states = site.world.states) :
    Books { site with world := next } rest out strangers :=
  { books.withWorld (Nat.le_of_eq hstates.symm) with
    held_once := fun id => Nat.le_trans (Nat.le_add_right _ _) (books.count_rest_le hperm id)
    held_lent := fun other hother =>
      books.held_lent other (hperm.mem_iff.2 (List.mem_cons_of_mem _ hother)) }

/-- A checkout ends, and its state is closed. -/
theorem retired (books : Books site held out strangers) {state : LuaState} {rest : List LuaState}
    (hperm : held.Perm (state :: rest)) (hstates : next.states = site.world.states)
    (event : Event) :
    Books ⟨{ site.pool.released with length := site.pool.length - 1 }.emit event, next⟩ rest
      (out.erase state.id) strangers := by
  have hrest := books.count_rest_le hperm
  have hmem := (books.lent_apart hperm).1
  have herase := count_erase_add (List.count_pos_iff.2 hmem)
  have later := books.kept hperm hstates
  have hserving := books.serving_eq
  have hlength := books.length_eq
  have hpos := List.length_pos_of_mem hmem
  exact
    { seeds_le := books.seeds_le
      length_eq := by
        simp only [Pool.emit, Pool.released]
        omega
      serving_eq := by
        simp only [Pool.emit, Pool.released, List.length_erase_of_mem hmem, hserving]
      length_le := fun h => Nat.le_trans (Nat.sub_le _ _) (books.length_le h)
      once := fun id => by
        have := books.once id
        have := herase id
        simp only [Pool.emit, Pool.released]
        omega
      held_once := fun id => by
        have := hrest id
        have := herase id
        omega
      idle_born := later.idle_born
      out_born := fun id hid => later.out_born id (List.mem_of_mem_erase hid)
      strangers_born := later.strangers_born
      idle_rests := books.idle_rests
      held_lent := later.held_lent
      parked_serving := by
        simp only [Pool.emit, Pool.released, Bool.and_eq_true, bne_iff_ne]
        omega }

/-- A checkout ends, and its state waits for the next one. -/
theorem recycled (books : Books site held out strangers) {state : LuaState} {rest : List LuaState}
    (hperm : held.Perm (state :: rest)) (hclosed : state.closed = false) (clock : Clock)
    (event : Event) :
    Books
      { site with
        pool := { site.pool.released with
          idle := state.setServing clock false :: site.pool.idle }.emit event }
      rest (out.erase state.id) strangers := by
  have hrest := books.count_rest_le hperm
  have hmem := (books.lent_apart hperm).1
  have herase := count_erase_add (List.count_pos_iff.2 hmem)
  have hserving := books.serving_eq
  have hlength := books.length_eq
  have hpos := List.length_pos_of_mem hmem
  exact
    { seeds_le := books.seeds_le
      length_eq := by
        simp only [Pool.emit, Pool.released, List.length_cons]
        omega
      serving_eq := by
        simp only [Pool.emit, Pool.released, List.length_erase_of_mem hmem, hserving]
      length_le := books.length_le
      once := fun id => by
        have := books.once id
        have := herase id
        simp only [Pool.emit, Pool.released, LuaState.setServing, List.map_cons, List.count_cons,
          beq_iff_eq]
        omega
      held_once := fun id => by
        have := hrest id
        have := herase id
        omega
      idle_born := List.forall_mem_cons.2 ⟨books.out_born state.id hmem, books.idle_born⟩
      out_born := fun id hid => books.out_born id (List.mem_of_mem_erase hid)
      strangers_born := books.strangers_born
      idle_rests := List.forall_mem_cons.2 ⟨⟨rfl, hclosed⟩, books.idle_rests⟩
      held_lent := fun other hother =>
        books.held_lent other (hperm.mem_iff.2 (List.mem_cons_of_mem _ hother))
      parked_serving := by
        simp only [Pool.emit, Pool.released, Bool.and_eq_true, bne_iff_ne]
        omega }

theorem part (books : Books site held out strangers) {state : LuaState} {rest : List LuaState}
    (hperm : held.Perm (state :: rest)) {result : Outcome PoolError Unit} {after : Site}
    (h : Site.Parted site state (result, after)) :
    Books after rest
      (if site.pool.tookIn after.pool state.id then out.erase state.id else out) strangers := by
  cases h with
  | kept hresult hstates =>
      rw [Pool.tookIn_self (books.lent_apart hperm).2]
      exact books.kept hperm hstates
  | @retired _ reason world hresult hclosed hstates =>
      rw [Pool.tookIn_of_cleanedUp rfl]
      exact books.retired hperm hstates _
  | recycled hresult hclosed haccepts hsince =>
      rw [Pool.tookIn_of_mem List.mem_cons_self]
      exact books.recycled hperm hclosed _ _

/-! ### Draining and seeding -/

theorem asleep (books : Books site held out strangers) (h : 0 < site.pool.serving) :
    Books { site with pool := { site.pool with parked := true } } held out strangers :=
  { books with parked_serving := fun _ => h }

/-- A complete drain leaves nothing behind, as nothing is checked out. -/
theorem emptied (books : Books site held out strangers) (hserving : site.pool.serving = 0)
    (hstates : next.states = site.world.states) (journal : Array Event) :
    Books ⟨{ site.pool with idle := [], length := 0, journal }, next⟩ held out strangers := by
  have later : Books { site with world := next } held out strangers :=
    books.withWorld (Nat.le_of_eq hstates.symm)
  exact
    { later with
      length_eq := by simp only [hserving, List.length_nil]
      length_le := fun _ => Nat.zero_le _
      once := fun id => by
        have := books.once id
        simp only [List.map_nil, List.count_nil]
        omega
      idle_born := fun _ h => nomatch h
      idle_rests := fun _ h => nomatch h }

theorem withSeeds (books : Books site held out strangers) (hlength : site.pool.length = 0)
    {born : List LuaState} (batch : LuaState.Batch site.world.states born)
    (hstates : next.states = site.world.states + born.length)
    (hcount : born.length ≤ site.pool.config.seeds) :
    Books ⟨site.pool.withSeeds born, next⟩ held out strangers := by
  have later : Books { site with world := next } held out strangers :=
    books.withWorld (by omega)
  have hlengths := books.length_eq
  exact
    { later with
      length_eq := by
        simp only [Pool.withSeeds, List.length_append]
        omega
      length_le := fun h => by
        have := books.seeds_le h
        simp only [Pool.withSeeds]
        omega
      once := fun id => by
        have honce := books.once id
        simp only [Pool.withSeeds, List.map_append, List.count_append]
        rcases Nat.lt_or_ge id.number site.world.states with h | h
        · have hborn : (born.map (·.id)).count id = 0 := by
            rw [List.count_eq_zero]
            intro hmem
            obtain ⟨state, hstate, rfl⟩ := List.mem_map.1 hmem
            have := batch.mem_range hstate
            omega
          omega
        · have hfresh := books.count_eq_zero id h
          have hborn := batch.count_le id
          omega
      idle_born := fun state hstate => by
        rcases List.mem_append.1 hstate with h | h
        · have := batch.mem_range h
          simp only
          omega
        · exact later.idle_born state h
      idle_rests := fun state hstate => by
        rcases List.mem_append.1 hstate with h | h
        · exact batch.rests h
        · exact books.idle_rests state h }

theorem seeded (books : Books site held out strangers) (hlength : site.pool.length = 0)
    {count : Nat} (hcount : count ≤ site.pool.config.seeds) {result : Outcome PoolError Unit}
    {after : Site} (h : Site.Seeded site count (result, after)) :
    Books after held out strangers := by
  cases h with
  | complete batch hstates hborn => exact books.withSeeds hlength batch hstates (by omega)
  | failed batch hstates hborn => exact books.withSeeds hlength batch hstates (by omega)
  | panicked hfault batch hstates hborn => exact books.withSeeds hlength batch hstates (by omega)

end Books

end StatePool
