import StatePool.Session.Request
import StatePool.Proofs.Capacity

/-!
What decides about a checkout, and what one that fails leaves behind.

A checkout looks at its token, at the status, at the idle states, at the room that is left, and at
last builds a state.  Each look can end it, and up to there nothing was changed.
-/

namespace StatePool

/-- Whether the capacity leaves room for one more state. -/
def Pool.HasRoom (pool : Pool) : Prop :=
  pool.config.capacity = 0 ∨ pool.length < pool.config.capacity

theorem Pool.not_hasRoom_iff (pool : Pool) :
    ¬ pool.HasRoom ↔ 0 < pool.config.capacity ∧ pool.config.capacity ≤ pool.length := by
  unfold HasRoom
  omega

/-- A state as its holder gets it. -/
def LuaState.leased (state : LuaState) (clock : Clock) : LuaState :=
  (state.setServing clock true).countRequest

namespace Site

variable {site after : Site} {request : Token} {result : Outcome PoolError LuaState}
  {state : LuaState}

/-- Everything that a checkout asks for. -/
structure Ready (site : Site) (request : Token) : Prop where
  live : site.isCancelled request = false
  accepts : site.pool.status.accepts = true
  stocked : site.pool.idle ≠ [] ∨ site.pool.HasRoom ∧ site.Buildable

/-- The ways in which a checkout fails, in the order in which they are looked for. -/
inductive Refuses (site : Site) (request : Token) : Outcome PoolError LuaState → Prop
  | cancelled (hcancelled : site.isCancelled request = true) :
      Refuses site request (.error .cancelled)
  | exiting (hlive : site.isCancelled request = false) (hstatus : site.pool.status = .exiting) :
      Refuses site request (.error .exiting)
  | dead (hlive : site.isCancelled request = false) (hstatus : site.pool.status = .dead) :
      Refuses site request (.error .dead)
  | full (hlive : site.isCancelled request = false) (haccepts : site.pool.status.accepts = true)
      (hidle : site.pool.idle = []) (hroom : ¬ site.pool.HasRoom) :
      Refuses site request (.error (.full site.pool.config.capacity))
  | unborn {result : Outcome PoolError LuaState} (hlive : site.isCancelled request = false)
      (haccepts : site.pool.status.accepts = true) (hidle : site.pool.idle = [])
      (hroom : site.pool.HasRoom) (h : site.Unborn result) : Refuses site request result

/-- What a checkout that fails leaves behind.  Only a full pool reports it, and only the hook can
have done something to the world. -/
structure Spared (site : Site) (result : Outcome PoolError LuaState) (after : Site) : Prop where
  pool_eq : after.pool = site.pool ∨
    result = .error (.full site.pool.config.capacity) ∧
      after.pool = site.pool.emit (.poolFull site.pool.config.capacity)
  world_eq : after.world = site.world ∨ site.Unborn result ∧ after.world = site.afterHook

/-- What a checkout that succeeds does. -/
inductive Lends (site : Site) : LuaState → Site → Prop
  /-- The state that came back last goes out again. -/
  | reused {waiting : LuaState} {idle : List LuaState} (hidle : site.pool.idle = waiting :: idle) :
      Lends site (waiting.leased site.world.clock)
        ⟨{ site.pool with
            idle, serving := site.pool.serving + 1, total := site.pool.total + 1 }.emit
            (.acquired waiting.id), site.world⟩
  | built {born : LuaState} {world : World} (hidle : site.pool.idle = [])
      (fresh : site.Fresh born world) :
      Lends site (born.leased world.clock)
        ⟨({ site.pool with
            length := site.pool.length + 1, serving := site.pool.serving + 1,
            total := site.pool.total + 1 }.emit (.created born.id)).emit (.acquired born.id),
          world⟩

inductive Decided (site : Site) (request : Token) : Outcome PoolError LuaState × Site → Prop
  | refused {result : Outcome PoolError LuaState} {after : Site}
      (h : site.Refuses request result) (spared : site.Spared result after) :
      Decided site request (result, after)
  | lent {state : LuaState} {after : Site} (ready : site.Ready request)
      (lends : site.Lends state after) : Decided site request (.ok state, after)

theorem take_of_room (hidle : site.pool.idle = []) (hroom : site.pool.HasRoom) :
    site.take = site.allocate := by
  have hfull : ¬ (0 < site.pool.config.capacity ∧ site.pool.config.capacity ≤ site.pool.length) :=
    fun h => site.pool.not_hasRoom_iff.2 h hroom
  simp only [take, hidle, if_neg hfull]

theorem allocate_of_birth {world : World} (h : site.birth = (.ok state, world)) :
    site.allocate =
      (.ok state,
        ⟨{ site.pool with length := site.pool.length + 1 }.emit (.created state.id), world⟩) := by
  rcases site.allocate_eq with ⟨other, next, hbirth, heq⟩ | ⟨result, next, hbirth, hresult, -⟩
  · cases h.symm.trans hbirth
    exact heq
  · cases h.symm.trans hbirth
    exact absurd rfl (hresult state)

theorem allocate_of_unborn (h : site.Unborn result) :
    site.allocate = (result, { site with world := site.afterHook }) := by
  have hresult : ∀ state, result ≠ .ok state := by
    cases h <;> nofun
  rcases site.allocate_eq with ⟨other, next, hbirth, -⟩ | ⟨other, next, hbirth, -, heq⟩
  · cases (birth_of_unborn h).symm.trans hbirth
    exact absurd rfl (hresult other)
  · cases (birth_of_unborn h).symm.trans hbirth
    exact heq

theorem get_decided (site : Site) (request : Token) : site.Decided request (site.get request) := by
  unfold get
  cases hlive : site.isCancelled request with
  | true => exact .refused (.cancelled hlive) ⟨.inl rfl, .inl rfl⟩
  | false =>
      simp only [Bool.false_eq_true, ↓reduceIte, checkOut]
      cases haccepts : site.pool.status.accepts with
      | false =>
          simp only [Bool.not_false, ↓reduceIte, Pool.refusal]
          cases hstatus : site.pool.status with
          | ready | running =>
              rw [hstatus] at haccepts
              cases haccepts
          | exiting => exact .refused (.exiting hlive hstatus) ⟨.inl rfl, .inl rfl⟩
          | dead => exact .refused (.dead hlive hstatus) ⟨.inl rfl, .inl rfl⟩
      | true =>
          cases hidle : site.pool.idle with
          | cons waiting idle =>
              have lends := Lends.reused hidle
              simp only [Bool.not_true, Bool.false_eq_true, ↓reduceIte, take, hidle]
              exact .lent ⟨hlive, haccepts, .inl (by simp [hidle])⟩ lends
          | nil =>
              by_cases hroom : site.pool.HasRoom
              · simp only [Bool.not_true, Bool.false_eq_true, ↓reduceIte, take_of_room hidle hroom]
                rcases site.unborn_or_buildable with ⟨result, unborn⟩ | buildable
                · rw [allocate_of_unborn unborn]
                  have refuses := Refuses.unborn hlive haccepts hidle hroom unborn
                  have spared : site.Spared result { site with world := site.afterHook } :=
                    ⟨.inl rfl, .inr ⟨unborn, rfl⟩⟩
                  cases unborn <;> exact .refused refuses spared
                · obtain ⟨born, world, hbirth, fresh⟩ := birth_of_buildable buildable
                  rw [allocate_of_birth hbirth]
                  have ready : site.Ready request := ⟨hlive, haccepts, .inr ⟨hroom, buildable⟩⟩
                  exact .lent ready (.built hidle fresh)
              · have hfull := site.pool.not_hasRoom_iff.1 hroom
                simp only [Bool.not_true, Bool.false_eq_true, ↓reduceIte, take, hidle, if_pos hfull]
                exact .refused (.full hlive haccepts hidle hroom) ⟨.inr ⟨rfl, rfl⟩, .inl rfl⟩

theorem get_not_ok (hresult : result.isOk = false)
    (h : site.get request = (result, after)) :
    site.Refuses request result ∧ site.Spared result after := by
  have decided := site.get_decided request
  rw [h] at decided
  cases decided with
  | refused refuses spared => exact ⟨refuses, spared⟩
  | lent => cases hresult

end Site

/-! ### Reading before asking -/

namespace System

end System

end StatePool
