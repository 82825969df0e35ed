import Mathlib.Order.Bounds.Defs
import StatePool.Event.Traffic
import StatePool.Proofs.Tables

/-!
What a subscriber of a bus is told.

The bus keeps its last messages for all readers together, and each reader has only a place among the
messages.  To the reader it is as if there were an inbox of its own, which takes in all that is sent
while it subscribes, and which is cut down to the last messages, with a notice of how many went,
when the reader comes back to it with more unread than the bus keeps.
-/

namespace StatePool

variable {α : Type} {capacity size : Nat} {closed : Bool} {all unread : List α} {name : String}

/-! ### Capacity -/

namespace Bus

variable {bus : Bus α} {receiver : Receiver}

theorem roundUp_isLeast (size : Nat) :
    IsLeast {capacity | size ≤ capacity ∧ capacity.isPowerOfTwo} (roundUp size) := by
  unfold roundUp
  split
  · next hone =>
      refine ⟨⟨hone, Nat.isPowerOfTwo_one⟩, ?_⟩
      rintro capacity ⟨-, hpower⟩
      exact Nat.pos_of_isPowerOfTwo hpower
  · next hone =>
      have hlt : size - 1 < 2 ^ ((size - 1).log2 + 1) := Nat.lt_log2_self
      refine ⟨⟨?_, _, rfl⟩, ?_⟩
      · have hle : size ≤ 2 ^ ((size - 1).log2 + 1) := by omega
        exact hle
      · rintro capacity ⟨hsize, k, rfl⟩
        have hself : 2 ^ (size - 1).log2 ≤ size - 1 := Nat.log2_self_le (by omega)
        have hpower : 2 ^ (size - 1).log2 < 2 ^ k := by omega
        have hk : (size - 1).log2 < k := (Nat.pow_lt_pow_iff_right (by decide)).1 hpower
        exact Nat.pow_le_pow_right (by decide) hk

/-- There is a bus of each size that memory has room for. -/
theorem new_eq_ok_iff : Bus.new size = .ok bus ↔
    (1 ≤ size ∧ roundUp size < memoryBound) ∧ bus = { capacity := roundUp size } := by
  have hle := (roundUp_isLeast size).1.1
  have hbound : memoryBound < Nat.pow 2 63 := by decide
  unfold Bus.new
  split
  · next h => simp [h]
  split
  · next h =>
      refine iff_of_false nofun ?_
      rintro ⟨⟨-, hlt⟩, -⟩
      omega
  split
  · next h =>
      refine iff_of_false nofun ?_
      rintro ⟨⟨-, hlt⟩, -⟩
      omega
  · next hzero _ hlt =>
      rw [Except.ok.injEq, eq_comm]
      exact (and_iff_right ⟨by omega, by omega⟩).symm

/-- The bus of a pool is one of these. -/
theorem new_defaultSize : Bus.new defaultSize = .ok (standard : Bus α) := rfl

end Bus

/-! ### What is told -/

/-- How many messages this stands for. -/
def Received.count : Received α → Nat
  | .message _ => 1
  | .lagged missed => missed
  | .empty | .closed => 0

def accounted : List (Received α) → Nat
  | [] => 0
  | received :: told => received.count + accounted told

/-- What is told stands for these messages, one by one or as so many that were missed. -/
inductive Accounts : List (Received α) → List α → Prop
  | nil : Accounts [] []
  | message (a : α) {told : List (Received α)} {read : List α} (h : Accounts told read) :
      Accounts (.message a :: told) (a :: read)
  | lagged (missed : List α) {told : List (Received α)} {read : List α} (h : Accounts told read) :
      Accounts (.lagged missed.length :: told) (missed ++ read)
  | empty {told : List (Received α)} {read : List α} (h : Accounts told read) :
      Accounts (.empty :: told) read
  | closed {told : List (Received α)} {read : List α} (h : Accounts told read) :
      Accounts (.closed :: told) read

theorem Accounts.append {told more : List (Received α)} {read later : List α}
    (h : Accounts told read) (hmore : Accounts more later) :
    Accounts (told ++ more) (read ++ later) := by
  induction h with
  | nil => exact hmore
  | message a _ ih => exact ih.message a
  | lagged missed _ ih =>
      rw [List.append_assoc]
      exact ih.lagged missed
  | empty _ ih => exact ih.empty
  | closed _ ih => exact ih.closed

theorem Accounts.accounted_eq {told : List (Received α)} {read : List α} (h : Accounts told read) :
    accounted told = read.length := by
  induction h with
  | nil => rfl
  | message a _ ih =>
      rw [accounted, Received.count, ih, List.length_cons, Nat.add_comm]
  | lagged missed _ ih => rw [accounted, Received.count, ih, List.length_append]
  | empty _ ih => rw [accounted, Received.count, ih, Nat.zero_add]
  | closed _ ih => rw [accounted, Received.count, ih, Nat.zero_add]

/-- These messages one by one, and that there are no more. -/
def outright (closed : Bool) (unread : List α) : List (Received α) :=
  unread.map .message ++ [if closed then .closed else .empty]

/-- What a reader with these unread messages is told if it reads on to the end. -/
def backlog (capacity : Nat) (closed : Bool) (unread : List α) : List (Received α) :=
  let missed := unread.length - capacity
  if missed = 0 then outright closed unread
  else .lagged missed :: outright closed (unread.drop missed)

def upTo {β : Type} (count : Option Nat) (told : List β) : List β :=
  match count with
  | some count => told.take count
  | none => told

theorem backlog_of_le (closed : Bool) (h : unread.length ≤ capacity) :
    backlog capacity closed unread = outright closed unread :=
  if_pos (Nat.sub_eq_zero_of_le h)

theorem backlog_of_lt (closed : Bool) (h : capacity < unread.length) :
    backlog capacity closed unread = .lagged (unread.length - capacity) ::
      outright closed (unread.drop (unread.length - capacity)) :=
  if_neg (Nat.sub_ne_zero_of_lt h)

theorem length_backlog_le (capacity : Nat) (closed : Bool) (unread : List α) :
    (backlog capacity closed unread).length ≤ min unread.length capacity + 2 := by
  have hlength (unread : List α) : (outright closed unread).length = unread.length + 1 := by
    simp [outright]
  rcases Nat.lt_or_ge capacity unread.length with h | h
  · rw [backlog_of_lt closed h, List.length_cons, hlength, List.length_drop]
    omega
  · rw [backlog_of_le closed h, hlength]
    omega

theorem accounts_take_outright (closed : Bool) (unread : List α) (count : Nat) :
    ∃ read rest, unread = read ++ rest ∧ Accounts ((outright closed unread).take count) read := by
  induction unread generalizing count with
  | nil =>
      refine ⟨[], [], rfl, ?_⟩
      cases count with
      | zero => exact .nil
      | succ count =>
          rw [outright, List.map_nil, List.nil_append, List.take_succ_cons, List.take_nil]
          cases closed with
          | true => exact .closed .nil
          | false => exact .empty .nil
  | cons a unread ih =>
      cases count with
      | zero => exact ⟨[], a :: unread, rfl, .nil⟩
      | succ count =>
          obtain ⟨read, rest, heq, h⟩ := ih count
          exact ⟨a :: read, rest, congrArg (List.cons a) heq, h.message a⟩

/-- However far it is read, a backlog stands for the first of the unread messages. -/
theorem accounts_take_backlog (capacity : Nat) (closed : Bool) (unread : List α) (count : Nat) :
    ∃ read rest, unread = read ++ rest ∧
      Accounts ((backlog capacity closed unread).take count) read := by
  rcases Nat.lt_or_ge capacity unread.length with h | h
  · rw [backlog_of_lt closed h]
    cases count with
    | zero => exact ⟨[], unread, rfl, .nil⟩
    | succ count =>
        obtain ⟨read, rest, heq, haccounts⟩ :=
          accounts_take_outright closed (unread.drop (unread.length - capacity)) count
        have hlagged := haccounts.lagged (unread.take (unread.length - capacity))
        rw [List.length_take, Nat.min_eq_left (Nat.sub_le _ _)] at hlagged
        refine ⟨unread.take (unread.length - capacity) ++ read, rest, ?_, hlagged⟩
        rw [List.append_assoc, ← heq, List.take_append_drop]
  · rw [backlog_of_le closed h]
    exact accounts_take_outright closed unread count

theorem accounts_upTo_backlog (capacity : Nat) (closed : Bool) (unread : List α)
    (count : Option Nat) : ∃ read rest, unread = read ++ rest ∧
      Accounts (upTo count (backlog capacity closed unread)) read := by
  cases count with
  | some count => exact accounts_take_backlog capacity closed unread count
  | none =>
      have h := accounts_take_backlog capacity closed unread (backlog capacity closed unread).length
      rwa [List.take_length] at h

/-! ### Reading -/

namespace Bus

variable {bus : Bus α} {receiver : Receiver}

/-- The bus was sent all of these messages and keeps the last of them. -/
structure Keeps (bus : Bus α) (all : List α) : Prop where
  sent_eq : bus.sent = all.length
  kept_eq : bus.kept = all.drop (all.length - bus.capacity)

theorem Keeps.emit (keeps : bus.Keeps all) (hreceivers : bus.receivers ≠ 0) (a : α) :
    (bus.emit a).Keeps (all ++ [a]) := by
  rw [Bus.emit, if_neg hreceivers]
  refine ⟨by simp [keeps.sent_eq], ?_⟩
  simp only [keeps.kept_eq, List.length_append, List.length_drop, List.length_cons, List.length_nil]
  rw [← List.drop_append_of_le_length (by omega), List.drop_drop]
  congr 1
  omega

theorem Keeps.receive_of_lt (keeps : bus.Keeps all)
    (h : bus.capacity < (all.drop receiver.next).length) :
    bus.receive receiver = (.lagged ((all.drop receiver.next).length - bus.capacity),
      ⟨receiver.next + ((all.drop receiver.next).length - bus.capacity)⟩) := by
  rw [List.length_drop] at h ⊢
  rw [receive, keeps.sent_eq, if_pos (by omega)]
  have hmissed : all.length - bus.capacity - receiver.next =
      all.length - receiver.next - bus.capacity := by
    omega
  have hnext : all.length - bus.capacity =
      receiver.next + (all.length - receiver.next - bus.capacity) := by
    omega
  rw [hmissed, ← hnext]

/-- What is read next is kept, unless the reader is too far behind. -/
theorem Keeps.getElem?_kept (keeps : bus.Keeps all)
    (h : (all.drop receiver.next).length ≤ bus.capacity) (hplace : receiver.next ≤ all.length) :
    bus.kept[receiver.next - bus.oldest]? = all[receiver.next]? := by
  rw [List.length_drop] at h
  simp only [oldest, keeps.sent_eq, keeps.kept_eq, List.length_drop, List.getElem?_drop]
  congr 1
  omega

theorem Keeps.receive_next (keeps : bus.Keeps all)
    (h : (all.drop receiver.next).length ≤ bus.capacity) (hlt : receiver.next < all.length) :
    bus.receive receiver = (.message all[receiver.next], ⟨receiver.next + 1⟩) := by
  have hkept := keeps.getElem?_kept h (Nat.le_of_lt hlt)
  rw [List.length_drop] at h
  rw [receive, keeps.sent_eq, if_neg (by omega), hkept, List.getElem?_eq_getElem hlt]

theorem Keeps.receive_end (keeps : bus.Keeps all) (hplace : receiver.next = all.length) :
    bus.receive receiver = (if bus.closed then .closed else .empty, receiver) := by
  have hle : (all.drop receiver.next).length ≤ bus.capacity := by
    rw [List.length_drop]
    omega
  have hkept := keeps.getElem?_kept hle (Nat.le_of_eq hplace)
  rw [hplace, List.getElem?_eq_none (Nat.le_refl _)] at hkept
  rw [receive, keeps.sent_eq, if_neg (by omega), hplace, hkept]

/-- One who is not too far behind is told the messages one by one. -/
theorem Keeps.receiveMany_of_le (keeps : bus.Keeps all) (hplace : receiver.next ≤ all.length)
    (h : (all.drop receiver.next).length ≤ bus.capacity) (count : Nat) :
    bus.receiveMany count receiver =
      let told := (outright bus.closed (all.drop receiver.next)).take count
      (told, ⟨receiver.next + accounted told⟩) := by
  induction count generalizing receiver with
  | zero => rfl
  | succ count ih =>
      rcases Nat.lt_or_eq_of_le hplace with hlt | heq
      · have hdrop := List.drop_eq_getElem_cons hlt
        have hle : (all.drop (receiver.next + 1)).length ≤ bus.capacity := by
          rw [hdrop, List.length_cons] at h
          omega
        have hmore : bus.receiveMany count ⟨receiver.next + 1⟩ = _ := ih hlt hle
        rw [Bus.receiveMany, keeps.receive_next h hlt]
        simp only [hmore, hdrop, outright, List.map_cons, List.cons_append, List.take_succ_cons,
          accounted, Received.count, Nat.add_assoc]
      · have hend : all.drop receiver.next = [] := by
          rw [heq, List.drop_length]
        rw [Bus.receiveMany, keeps.receive_end heq, hend]
        cases bus.closed with
        | true => simp [outright, accounted, Received.count]
        | false => simp [outright, accounted, Received.count]

theorem Keeps.receiveMany (keeps : bus.Keeps all) (hplace : receiver.next ≤ all.length)
    (count : Nat) :
    bus.receiveMany count receiver =
      let told := (backlog bus.capacity bus.closed (all.drop receiver.next)).take count
      (told, ⟨receiver.next + accounted told⟩) := by
  rcases Nat.lt_or_ge bus.capacity (all.drop receiver.next).length with h | h
  · cases count with
    | zero => rfl
    | succ count =>
        have hread := keeps.receive_of_lt h
        rw [backlog_of_lt _ h]
        generalize hmissed : (all.drop receiver.next).length - bus.capacity = missed at hread ⊢
        rw [List.length_drop] at h hmissed
        have hle : (all.drop (receiver.next + missed)).length ≤ bus.capacity := by
          rw [List.length_drop]
          omega
        have hlater : receiver.next + missed ≤ all.length := by omega
        have hmore : bus.receiveMany count ⟨receiver.next + missed⟩ = _ :=
          keeps.receiveMany_of_le hlater hle count
        rw [Bus.receiveMany, hread]
        simp only [hmore, List.drop_drop, List.take_succ_cons, accounted, Received.count,
          Nat.add_assoc]
  · rw [backlog_of_le _ h]
    exact keeps.receiveMany_of_le hplace h count

theorem Keeps.receiveAll (keeps : bus.Keeps all) (hplace : receiver.next ≤ all.length) :
    bus.receiveAll receiver =
      let told := backlog bus.capacity bus.closed (all.drop receiver.next)
      (told, ⟨receiver.next + accounted told⟩) := by
  have hlength := length_backlog_le bus.capacity bus.closed (all.drop receiver.next)
  rw [List.length_drop] at hlength
  have hwhole : (backlog bus.capacity bus.closed (all.drop receiver.next)).take
      (bus.kept.length + 2) = backlog bus.capacity bus.closed (all.drop receiver.next) := by
    apply List.take_of_length_le
    rw [keeps.kept_eq, List.length_drop]
    omega
  rw [Bus.receiveAll, keeps.receiveMany hplace, hwhole]

end Bus

/-! ### Inboxes -/

/-- What a subscriber has not read yet. -/
structure Inbox (α : Type) where
  closed : Bool := false
  unread : List α := []

namespace Inbox

variable {inbox : Inbox α} {action : BusAction α} {actions : List (BusAction α)}

/-- What the subscriber of a name is told at a step, and what its inbox is then. -/
def hear (capacity : Nat) (name : String) (inbox : Inbox α) :
    BusAction α → List (Received α) × Inbox α
  | .emit messages =>
      ([], if inbox.closed then inbox else { inbox with unread := inbox.unread ++ messages })
  | .receive other count =>
      if other = name then
        let told := upTo count (backlog capacity inbox.closed inbox.unread)
        (told, { inbox with unread := inbox.unread.drop (accounted told) })
      else ([], inbox)
  | .close => ([], { inbox with closed := true })
  | .subscribe _ | .unsubscribe _ | .describe => ([], inbox)

def hearAll (capacity : Nat) (name : String) (inbox : Inbox α) :
    List (BusAction α) → List (Received α) × Inbox α
  | [] => ([], inbox)
  | action :: actions =>
      let (told, inbox) := inbox.hear capacity name action
      let (more, inbox) := hearAll capacity name inbox actions
      (told ++ more, inbox)

end Inbox

/-- What is sent until the bus is closed. -/
def emitted : List (BusAction α) → List α
  | [] => []
  | .close :: _ => []
  | .emit messages :: actions => messages ++ emitted actions
  | _ :: actions => emitted actions

def BusAction.closes : BusAction α → Bool
  | .close => true
  | _ => false

/-- Whether a step is about the subscriber of a name, or about all of them. -/
def BusAction.concerns (name : String) : BusAction α → Bool
  | .emit _ | .close => true
  | .receive other _ => other == name
  | .subscribe _ | .unsubscribe _ | .describe => false

namespace Inbox

variable {inbox : Inbox α} {action : BusAction α} {actions : List (BusAction α)}

theorem hear_of_not_concerns (h : action.concerns name = false) :
    inbox.hear capacity name action = ([], inbox) := by
  cases action with
  | emit => cases h
  | close => cases h
  | receive other count =>
      have hne : other ≠ name := by simpa [BusAction.concerns] using h
      simp only [hear, if_neg hne]
  | _ => rfl

/-- What others do is of no account. -/
theorem hearAll_filter (inbox : Inbox α) (actions : List (BusAction α)) :
    inbox.hearAll capacity name (actions.filter (·.concerns name)) =
      inbox.hearAll capacity name actions := by
  induction actions generalizing inbox with
  | nil => rfl
  | cons action actions ih =>
      rw [List.filter_cons]
      split
      · simp only [hearAll, ih]
      · next h =>
          rw [Bool.not_eq_true] at h
          simp only [hearAll, hear_of_not_concerns h, ih, List.nil_append]

/-- What was in the inbox and what came in was told, or is there still. -/
theorem hearAll_conserves (capacity : Nat) (name : String) (inbox : Inbox α)
    (actions : List (BusAction α)) :
    ∃ read, inbox.unread ++ (if inbox.closed then [] else emitted actions) =
        read ++ (inbox.hearAll capacity name actions).2.unread ∧
      Accounts (inbox.hearAll capacity name actions).1 read := by
  induction actions generalizing inbox with
  | nil =>
      refine ⟨[], ?_, .nil⟩
      cases inbox.closed <;> simp [emitted, hearAll]
  | cons action actions ih =>
      -- A step that tells nothing leaves what will have come in as it is.
      have hquiet {next : Inbox α} (hhear : inbox.hear capacity name action = ([], next))
          (hsame : next.unread ++ (if next.closed then [] else emitted actions) =
            inbox.unread ++ (if inbox.closed then [] else emitted (action :: actions))) :
          ∃ read, inbox.unread ++ (if inbox.closed then [] else emitted (action :: actions)) =
              read ++ (inbox.hearAll capacity name (action :: actions)).2.unread ∧
            Accounts (inbox.hearAll capacity name (action :: actions)).1 read := by
        obtain ⟨read, heq, h⟩ := ih next
        simp only [hearAll, hhear, List.nil_append]
        exact ⟨read, hsame.symm.trans heq, h⟩
      cases action with
      | subscribe other => exact hquiet rfl rfl
      | unsubscribe other => exact hquiet rfl rfl
      | describe => exact hquiet rfl rfl
      | close =>
          refine hquiet rfl ?_
          cases inbox.closed <;> simp [emitted]
      | emit messages =>
          refine hquiet rfl ?_
          cases hclosed : inbox.closed <;> simp [emitted, hclosed]
      | receive other count =>
          by_cases hname : other = name
          · obtain ⟨read, rest, hunread, h⟩ :=
              accounts_upTo_backlog capacity inbox.closed inbox.unread count
            have hrest : inbox.unread.drop
                (accounted (upTo count (backlog capacity inbox.closed inbox.unread))) = rest := by
              rw [h.accounted_eq, hunread, List.drop_left]
            obtain ⟨later, heq, hmore⟩ := ih { inbox with unread := rest }
            simp only [hearAll, hear, if_pos hname, hrest]
            refine ⟨read ++ later, ?_, h.append hmore⟩
            rw [List.append_assoc, ← heq, ← List.append_assoc, ← hunread]
            rfl
          · exact hquiet (by simp only [hear, if_neg hname]) rfl

theorem closed_hear (capacity : Nat) (name : String) (inbox : Inbox α) (action : BusAction α) :
    (inbox.hear capacity name action).2.closed = (inbox.closed || action.closes) := by
  cases action with
  | emit messages =>
      simp only [hear, BusAction.closes, Bool.or_false]
      split <;> rfl
  | receive other count =>
      simp only [hear, BusAction.closes, Bool.or_false]
      split <;> rfl
  | close => exact (Bool.or_true _).symm
  | _ => exact (Bool.or_false _).symm

theorem closed_hearAll (capacity : Nat) (name : String) (inbox : Inbox α)
    (actions : List (BusAction α)) :
    (inbox.hearAll capacity name actions).2.closed =
      (inbox.closed || actions.any BusAction.closes) := by
  induction actions generalizing inbox with
  | nil => exact (Bool.or_false _).symm
  | cons action actions ih =>
      rw [hearAll, ih, closed_hear, List.any_cons, Bool.or_assoc]

end Inbox

/-! ### Hubs -/

namespace Hub

variable {hub : Hub α} {inbox : Inbox α} {receiver : Receiver} {action : BusAction α}
  {actions : List (BusAction α)}

/-- The receivers of a hub are counted on its bus. -/
structure Sound (hub : Hub α) (capacity : Nat) (all : List α) : Prop where
  keeps : hub.bus.Keeps all
  capacity_eq : hub.bus.capacity = capacity
  counted : hub.bus.receivers = hub.receivers.length
  names : (hub.receivers.map Prod.fst).Nodup

theorem get?_cons (bus : Bus α) (receivers : List (String × Receiver)) (name other : String)
    (receiver : Receiver) :
    Hub.get? ⟨bus, (name, receiver) :: receivers.filter fun entry => entry.1 != name⟩ other =
      if other = name then some receiver else receivers.lookup other := by
  rw [get?, lookup_cons_ite, lookup_filter_ne]
  split <;> rfl

theorem Sound.subscribe (sound : hub.Sound capacity all) (name : String) :
    (hub.subscribe name).Sound capacity all where
  keeps := by
    simp only [Hub.subscribe]
    split <;> exact ⟨sound.keeps.sent_eq, sound.keeps.kept_eq⟩
  capacity_eq := by
    simp only [Hub.subscribe]
    split <;> exact sound.capacity_eq
  counted := by
    have hcount := sound.counted
    simp only [Hub.subscribe, Bus.subscribe, List.length_cons]
    cases hname : hub.get? name with
    | none => simp [without, filter_ne_of_lookup hname, hcount]
    | some receiver =>
        have hlength := length_filter_ne sound.names hname
        simp [Bus.unsubscribe, without, hcount, hlength]
  names := nodup_cons_filter sound.names name _

theorem Sound.unsubscribe (sound : hub.Sound capacity all) (name : String) :
    (hub.unsubscribe name).2.Sound capacity all := by
  unfold Hub.unsubscribe
  cases hname : hub.get? name with
  | none => exact sound
  | some receiver =>
      have hlength := length_filter_ne sound.names hname
      have hcount := sound.counted
      refine ⟨⟨sound.keeps.sent_eq, sound.keeps.kept_eq⟩, sound.capacity_eq, ?_, ?_⟩
      · simp only [Bus.unsubscribe, without]
        omega
      · exact sound.names.sublist (List.filter_sublist.map Prod.fst)

theorem receivers_emitAll (hub : Hub α) (messages : List α) :
    (hub.emitAll messages).receivers = hub.receivers := by
  unfold Hub.emitAll
  induction messages generalizing hub with
  | nil => rfl
  | cons a messages ih => exact ih (hub.emit a)

theorem closed_emitAll (hub : Hub α) (messages : List α) :
    (hub.emitAll messages).bus.closed = hub.bus.closed := by
  unfold Hub.emitAll
  induction messages generalizing hub with
  | nil => rfl
  | cons a messages ih =>
      refine (ih (hub.emit a)).trans ?_
      simp only [Hub.emit, Bus.emit]
      split <;> rfl

/-- What is sent while somebody subscribes is sent to all who do. -/
theorem Sound.emitAll (sound : hub.Sound capacity all) (hsome : hub.receivers ≠ [])
    (messages : List α) : (hub.emitAll messages).Sound capacity (all ++ messages) := by
  unfold Hub.emitAll
  induction messages generalizing hub all with
  | nil =>
      rw [List.append_nil]
      exact sound
  | cons a messages ih =>
      have hcount := sound.counted
      have hreceivers : hub.bus.receivers ≠ 0 := by
        rw [hcount]
        exact fun h => hsome (List.length_eq_zero_iff.1 h)
      have hnext : (hub.emit a).Sound capacity (all ++ [a]) := by
        refine ⟨sound.keeps.emit hreceivers a, ?_, ?_, sound.names⟩
        · exact (hub.bus.capacity_emit a).trans sound.capacity_eq
        · rw [Hub.emit, Bus.emit, if_neg hreceivers]
          exact hcount
      have hlater := ih hnext hsome
      rwa [List.append_assoc] at hlater

theorem Sound.emitAll_of_nobody (sound : hub.Sound capacity all) (hnone : hub.receivers = [])
    (messages : List α) : hub.emitAll messages = hub := by
  have hreceivers : hub.bus.receivers = 0 := by
    rw [sound.counted, hnone]
    rfl
  have hemit (a : α) : hub.emit a = hub := by
    rw [Hub.emit, Bus.emit_of_no_receivers _ _ hreceivers]
  unfold Hub.emitAll
  induction messages with
  | nil => rfl
  | cons a messages ih => rw [List.foldl_cons, hemit, ih]

theorem Sound.receive (sound : hub.Sound capacity all) (name : String) (count : Option Nat) :
    (hub.receive name count).2.Sound capacity all := by
  unfold Hub.receive
  cases hname : hub.get? name with
  | none => exact sound
  | some receiver =>
      have hlength := length_filter_ne sound.names hname
      have hcount := sound.counted
      refine ⟨sound.keeps, sound.capacity_eq, ?_, nodup_cons_filter sound.names name _⟩
      simp only [without, List.length_cons]
      omega

theorem Sound.apply (sound : hub.Sound capacity all) (action : BusAction α) :
    ∃ later, (hub.apply action).2.Sound capacity (all ++ later) := by
  have hsame {next : Hub α} (h : next.Sound capacity all) :
      ∃ later, next.Sound capacity (all ++ later) :=
    ⟨[], by rwa [List.append_nil]⟩
  cases action with
  | subscribe name =>
      simp only [Hub.apply, whileOpen]
      split
      · exact hsame sound
      · exact hsame (sound.subscribe name)
  | unsubscribe name => exact hsame (sound.unsubscribe name)
  | emit messages =>
      simp only [Hub.apply, whileOpen]
      split
      · exact hsame sound
      by_cases hnone : hub.receivers = []
      · rw [sound.emitAll_of_nobody hnone]
        exact hsame sound
      · exact ⟨messages, sound.emitAll hnone messages⟩
  | receive name count => exact hsame (sound.receive name count)
  | describe =>
      simp only [Hub.apply, whileOpen]
      split <;> exact hsame sound
  | close =>
      exact hsame ⟨⟨sound.keeps.sent_eq, sound.keeps.kept_eq⟩, sound.capacity_eq, sound.counted,
        sound.names⟩

theorem closed_apply (hub : Hub α) (action : BusAction α) :
    (hub.apply action).2.bus.closed = (hub.bus.closed || action.closes) := by
  cases action with
  | subscribe name =>
      simp only [Hub.apply, whileOpen, Hub.subscribe, BusAction.closes, Bool.or_false]
      split
      · rfl
      · split <;> rfl
  | unsubscribe name =>
      simp only [Hub.apply, Hub.unsubscribe, BusAction.closes, Bool.or_false]
      split <;> rfl
  | emit messages =>
      simp only [Hub.apply, whileOpen, BusAction.closes, Bool.or_false]
      split
      · rfl
      · exact closed_emitAll hub messages
  | receive name count =>
      simp only [Hub.apply, Hub.receive, BusAction.closes, Bool.or_false]
      split <;> rfl
  | describe =>
      simp only [Hub.apply, whileOpen, BusAction.closes, Bool.or_false]
      split <;> rfl
  | close => exact (Bool.or_true _).symm

/-- The hub serves the subscriber of a name out of this inbox. -/
structure Serves (hub : Hub α) (capacity : Nat) (name : String) (inbox : Inbox α) : Prop where
  closed_eq : hub.bus.closed = inbox.closed
  place : ∃ all, hub.Sound capacity all ∧ ∃ receiver, hub.get? name = some receiver ∧
    receiver.next ≤ all.length ∧ all.drop receiver.next = inbox.unread

/-- What the subscriber of a name is answered at a step. -/
def told (name : String) : BusAction α → BusAnswer α → List (Received α)
  | .receive other _, .received told => if other = name then told else []
  | _, _ => []

/-- The step leaves the subscriber of a name as it is; nobody subscribes to a closed bus. -/
def Spares (name : String) (closed : Bool) : BusAction α → Prop
  | .subscribe other => other = name → closed = true
  | .unsubscribe other => other ≠ name
  | _ => True

theorem Serves.receive (serves : hub.Serves capacity name inbox) (count : Option Nat) :
    let told := upTo count (backlog capacity inbox.closed inbox.unread)
    (hub.receive name count).1 = told ∧ (hub.receive name count).2.Serves capacity name
      { inbox with unread := inbox.unread.drop (accounted told) } := by
  obtain ⟨hclosed, all, sound, receiver, hname, hplace, hunread⟩ := serves
  obtain ⟨read, rest, heq, haccounts⟩ :=
    accounts_upTo_backlog capacity inbox.closed inbox.unread count
  intro told
  have hlength : accounted told ≤ all.length - receiver.next := by
    rw [haccounts.accounted_eq, ← List.length_drop, hunread, heq, List.length_append]
    omega
  have hnext : hub.receive name count =
      (told, { hub with
        receivers := (name, ⟨receiver.next + accounted told⟩) :: hub.without name }) := by
    have hmany (count : Nat) := sound.keeps.receiveMany hplace count
    have hall := sound.keeps.receiveAll hplace
    rw [sound.capacity_eq, hclosed, hunread] at hall
    simp only [sound.capacity_eq, hclosed, hunread] at hmany
    cases count with
    | some count => simp only [Hub.receive, hname, hmany]; rfl
    | none => simp only [Hub.receive, hname, hall]; rfl
  have hend : receiver.next + accounted told ≤ all.length := by omega
  rw [hnext]
  refine ⟨rfl, hclosed, all, ?_, ⟨receiver.next + accounted told⟩, ?_, ?_, ?_⟩
  · have hsound := sound.receive name count
    rwa [hnext] at hsound
  · exact (get?_cons _ _ _ _ _).trans (if_pos rfl)
  · exact hend
  · rw [← List.drop_drop, hunread]

/-- Of what others do, the subscriber does not hear. -/
theorem Serves.of_same (serves : hub.Serves capacity name inbox) {next : Hub α}
    (hclosed : next.bus.closed = inbox.closed)
    (hsound : ∀ all, hub.Sound capacity all → next.Sound capacity all)
    (hname : next.get? name = hub.get? name) : next.Serves capacity name inbox := by
  obtain ⟨-, all, sound, receiver, hreceiver, hplace, hunread⟩ := serves
  exact ⟨hclosed, all, hsound all sound, receiver, hname.trans hreceiver, hplace, hunread⟩

theorem Serves.emit (serves : hub.Serves capacity name inbox) (messages : List α) :
    (hub.emitAll messages).Serves capacity name
      { inbox with unread := inbox.unread ++ messages } := by
  obtain ⟨hclosed, all, sound, receiver, hname, hplace, hunread⟩ := serves
  have hsome : hub.receivers ≠ [] := by
    intro hnil
    rw [get?, hnil] at hname
    cases hname
  refine ⟨(closed_emitAll hub messages).trans hclosed, all ++ messages,
    sound.emitAll hsome messages, receiver, ?_, ?_, ?_⟩
  · rwa [get?, receivers_emitAll]
  · rw [List.length_append]
    omega
  · rw [List.drop_append_of_le_length hplace, hunread]

theorem Serves.apply (serves : hub.Serves capacity name inbox)
    (hspares : Spares name inbox.closed action) :
    told name action (hub.apply action).1 = (inbox.hear capacity name action).1 ∧
      (hub.apply action).2.Serves capacity name (inbox.hear capacity name action).2 := by
  have hopen := serves.closed_eq
  have hclosed : (hub.apply action).2.bus.closed = (inbox.hear capacity name action).2.closed := by
    rw [closed_apply, Inbox.closed_hear, hopen]
  cases action with
  | subscribe other =>
      refine ⟨rfl, serves.of_same hclosed ?_ ?_⟩
      · intro all sound
        simp only [Hub.apply, whileOpen]
        split
        · exact sound
        · exact sound.subscribe other
      · simp only [Hub.apply, whileOpen]
        split
        · rfl
        · next hwhile =>
            have hne : name ≠ other := by
              rintro rfl
              exact hwhile (hopen.trans (hspares rfl))
            exact (get?_cons _ _ _ _ _).trans (if_neg hne)
  | unsubscribe other =>
      refine ⟨rfl, serves.of_same hclosed (fun all sound => sound.unsubscribe other) ?_⟩
      simp only [Hub.apply, Hub.unsubscribe]
      split
      · rfl
      · rw [get?, without, lookup_filter_ne, if_neg (Ne.symm hspares), get?]
  | emit messages =>
      refine ⟨rfl, ?_⟩
      simp only [Hub.apply, whileOpen, Inbox.hear, hopen]
      split
      · exact serves
      · exact serves.emit messages
  | receive other count =>
      by_cases hname : other = name
      · subst hname
        obtain ⟨htold, hserves⟩ := serves.receive count
        simp only [Hub.apply, told, Inbox.hear, ↓reduceIte]
        exact ⟨htold, hserves⟩
      · simp only [Inbox.hear, if_neg hname] at hclosed ⊢
        have hsound (all : List α) (sound : hub.Sound capacity all) := sound.receive other count
        refine ⟨if_neg hname, serves.of_same hclosed hsound ?_⟩
        simp only [Hub.apply, Hub.receive]
        split
        · rfl
        · exact (get?_cons _ _ _ _ _).trans (if_neg (Ne.symm hname))
  | describe =>
      refine ⟨rfl, serves.of_same hclosed ?_ ?_⟩
      · intro all sound
        simp only [Hub.apply, whileOpen]
        split <;> exact sound
      · simp only [Hub.apply, whileOpen]
        split <;> rfl
  | close =>
      obtain ⟨-, all, sound, receiver, hname, hplace, hunread⟩ := serves
      have hsound : hub.close.Sound capacity all :=
        ⟨⟨sound.keeps.sent_eq, sound.keeps.kept_eq⟩, sound.capacity_eq, sound.counted, sound.names⟩
      exact ⟨rfl, rfl, all, hsound, receiver, hname, hplace, hunread⟩

/-- One who is too far behind goes on with all that is kept. -/
theorem Serves.kept_eq (serves : hub.Serves capacity name inbox)
    (h : capacity < inbox.unread.length) :
    inbox.unread.drop (inbox.unread.length - capacity) = hub.bus.kept := by
  obtain ⟨-, all, sound, receiver, -, hplace, hunread⟩ := serves
  rw [← hunread, List.length_drop] at h ⊢
  rw [List.drop_drop, sound.keeps.kept_eq, sound.capacity_eq]
  congr 1
  omega

/-! ### Traffic -/

def after (hub : Hub α) (actions : List (BusAction α)) : Hub α :=
  (hub.applyAll actions).2

/-- All that the subscriber of a name is answered in the course of some steps. -/
def heard (hub : Hub α) (name : String) (actions : List (BusAction α)) : List (Received α) :=
  (List.zipWith (told name) actions (hub.applyAll actions).1).flatten

/-- The steps leave the subscriber of a name as it is. -/
def Lasts (name : String) : Bool → List (BusAction α) → Prop
  | _, [] => True
  | closed, action :: actions =>
      Spares name closed action ∧ Lasts name (closed || action.closes) actions

theorem after_append (hub : Hub α) (actions later : List (BusAction α)) :
    hub.after (actions ++ later) = (hub.after actions).after later := by
  unfold after
  induction actions generalizing hub with
  | nil => rfl
  | cons action actions ih => exact ih (hub.apply action).2

theorem heard_cons (hub : Hub α) (name : String) (action : BusAction α)
    (actions : List (BusAction α)) : hub.heard name (action :: actions) =
      told name action (hub.apply action).1 ++ (hub.apply action).2.heard name actions := rfl

theorem Serves.applyAll (serves : hub.Serves capacity name inbox)
    (hlasts : Lasts name inbox.closed actions) :
    hub.heard name actions = (inbox.hearAll capacity name actions).1 ∧
      (hub.after actions).Serves capacity name (inbox.hearAll capacity name actions).2 := by
  induction actions generalizing hub inbox with
  | nil => exact ⟨rfl, serves⟩
  | cons action actions ih =>
      obtain ⟨htold, hnext⟩ := serves.apply hlasts.1
      have hlater := hlasts.2
      rw [← Inbox.closed_hear capacity name] at hlater
      obtain ⟨hheard, hserves⟩ := ih hnext hlater
      rw [heard_cons, htold, hheard]
      exact ⟨rfl, hserves⟩

theorem Sound.after (sound : hub.Sound capacity all) (actions : List (BusAction α)) :
    ∃ later, (hub.after actions).Sound capacity (all ++ later) := by
  induction actions generalizing hub all with
  | nil => exact ⟨[], by rwa [List.append_nil]⟩
  | cons action actions ih =>
      obtain ⟨later, hsound⟩ := sound.apply action
      obtain ⟨last, hlast⟩ := ih hsound
      exact ⟨later ++ last, by rwa [← List.append_assoc]⟩

theorem closed_after (hub : Hub α) (actions : List (BusAction α)) :
    (hub.after actions).bus.closed = (hub.bus.closed || actions.any BusAction.closes) := by
  unfold after
  induction actions generalizing hub with
  | nil => exact (Bool.or_false _).symm
  | cons action actions ih =>
      rw [List.any_cons, ← Bool.or_assoc, ← closed_apply]
      exact ih (hub.apply action).2

/-- One who subscribes to an open bus has nothing to read at first. -/
theorem serves_subscribe (sound : hub.Sound capacity all) (hopen : hub.bus.closed = false)
    (name : String) : (hub.after [.subscribe name]).Serves capacity name {} := by
  have hnext : hub.after [.subscribe name] = hub.subscribe name := by
    simp only [after, Hub.applyAll, Hub.apply, whileOpen, hopen, Bool.false_eq_true, ↓reduceIte]
  rw [hnext]
  refine ⟨?_, all, sound.subscribe name, ⟨hub.bus.sent⟩, ?_, ?_, ?_⟩
  · simp only [Hub.subscribe]
    split <;> exact hopen
  · exact (get?_cons _ _ _ _ _).trans (if_pos rfl)
  · exact Nat.le_of_eq sound.keeps.sent_eq
  · exact List.drop_eq_nil_of_le (Nat.le_of_eq sound.keeps.sent_eq.symm)

end Hub

/-! ### Whole subscriptions -/

namespace Hub

/-- The hub of a bus after some steps, and after somebody subscribed then. -/
def joined (bus : Bus α) (before : List (BusAction α)) (name : String) : Hub α :=
  (Hub.mk bus []).after (before ++ [.subscribe name])

/-- What was sent since then, and was not told yet. -/
def pending (hub : Hub α) (name : String) (during : List (BusAction α)) : List α :=
  (emitted during).drop (accounted (hub.heard name during))

/-- What the subscriber of a name is told, who subscribed to a bus of some size and is there still
after some more steps. -/
structure Delivers (size : Nat) (bus : Bus α) (before : List (BusAction α)) (name : String)
    (during : List (BusAction α)) : Prop where
  rounded : IsLeast {capacity | size ≤ capacity ∧ capacity.isPowerOfTwo} bus.capacity
  conserved : Accounts ((joined bus before name).heard name during)
    ((emitted during).take (accounted ((joined bus before name).heard name during)))
  next : ∀ count, (((joined bus before name).after during).apply (.receive name count)).1 =
    .received (upTo count (backlog bus.capacity (during.any BusAction.closes)
      ((joined bus before name).pending name during)))
  resumes : bus.capacity < ((joined bus before name).pending name during).length →
    ((joined bus before name).pending name during).drop
        (((joined bus before name).pending name during).length - bus.capacity) =
      ((joined bus before name).after during).bus.kept
  prompt : ((joined bus before name).pending name during).length ≤ size → ∀ missed,
    .lagged missed ∉ backlog bus.capacity (during.any BusAction.closes)
      ((joined bus before name).pending name during)
  alone : (joined bus before name).heard name during =
    (joined bus [] name).heard name (during.filter (·.concerns name))

theorem lasts_filter (name : String) (closed : Bool) (actions : List (BusAction α)) :
    Lasts name closed (actions.filter (·.concerns name)) := by
  induction actions generalizing closed with
  | nil => trivial
  | cons action actions ih =>
      rw [List.filter_cons]
      split
      · next h =>
          refine ⟨?_, ih _⟩
          cases action with
          | emit => trivial
          | receive => trivial
          | close => trivial
          | _ => cases h
      · exact ih closed

theorem sound_new (bus : Bus α) (hbus : bus = { capacity }) :
    (Hub.mk bus []).Sound capacity [] := by
  subst hbus
  exact ⟨⟨rfl, List.drop_nil.symm⟩, rfl, rfl, List.nodup_nil⟩

theorem delivers_of_new {bus : Bus α} (hnew : Bus.new size = .ok bus)
    {before during : List (BusAction α)} {name : String}
    (hopen : before.any BusAction.closes = false) (hlasts : Lasts name false during) :
    Delivers size bus before name during := by
  obtain ⟨-, hbus⟩ := Bus.new_eq_ok_iff.1 hnew
  have hcapacity : bus.capacity = Bus.roundUp size := by rw [hbus]
  have hleast := Bus.roundUp_isLeast size
  rw [← hcapacity] at hleast
  have sound : (Hub.mk bus []).Sound bus.capacity [] := by
    rw [hcapacity]
    exact sound_new bus hbus
  have hjoined (before : List (BusAction α)) (hopen : before.any BusAction.closes = false) :
      (joined bus before name).Serves bus.capacity name {} := by
    obtain ⟨all, hsound⟩ := sound.after before
    rw [joined, after_append]
    refine serves_subscribe hsound ?_ name
    rw [closed_after, hopen, hbus]
    rfl
  obtain ⟨hheard, hafter⟩ := (hjoined before hopen).applyAll hlasts
  obtain ⟨read, heq, haccounts⟩ :=
    Inbox.hearAll_conserves bus.capacity name {} during
  have hclosed := Inbox.closed_hearAll bus.capacity name {} during
  rw [← hheard] at haccounts
  generalize (({} : Inbox α).hearAll bus.capacity name during).2 = inbox at hafter heq hclosed
  have hemitted : emitted during = read ++ inbox.unread := heq
  have hpending : (joined bus before name).pending name during = inbox.unread := by
    rw [pending, haccounts.accounted_eq, hemitted, List.drop_left]
  refine ⟨hleast, ?_, ?_, ?_, ?_, ?_⟩
  · rw [haccounts.accounted_eq, hemitted, List.take_left]
    exact haccounts
  · intro count
    rw [hpending, ← Bool.false_or (during.any _), ← hclosed]
    exact congrArg BusAnswer.received (hafter.receive count).1
  · intro h
    rw [hpending] at h ⊢
    exact hafter.kept_eq h
  · intro h missed
    have hle := Nat.le_trans h hleast.1.1
    rw [backlog_of_le _ hle, outright]
    cases during.any BusAction.closes <;> simp
  · have hothers := ((hjoined [] rfl).applyAll (lasts_filter name false during)).1
    rw [hheard, hothers, Inbox.hearAll_filter]

/-- A bus of any size that memory has room for loses nothing silently: what a subscriber is told
stands for all that was sent since it subscribed, and nobody else has a say in it. -/
theorem delivers (hsize : 1 ≤ size) :
    (Bus.memoryBound ≤ Bus.roundUp size ∧
      ∃ fault, (Bus.new size : Except Fault (Bus α)) = .error fault) ∨
    ∃ bus : Bus α, Bus.new size = .ok bus ∧
      ∀ before during name, before.any BusAction.closes = false → Lasts name false during →
        Delivers size bus before name during := by
  cases hnew : (Bus.new size : Except Fault (Bus α)) with
  | error fault =>
      refine .inl ⟨Nat.le_of_not_lt fun hroom => ?_, fault, rfl⟩
      cases hnew.symm.trans (Bus.new_eq_ok_iff.2 ⟨⟨hsize, hroom⟩, rfl⟩)
  | ok bus =>
      exact .inr ⟨bus, rfl, fun _ _ _ hopen hlasts => delivers_of_new hnew hopen hlasts⟩

/-- Too slow for a bus of four, and told the rest when it is closed. -/
theorem laggard_delivers :
    let bus : Bus Nat := { capacity := 4 }
    let before : List (BusAction Nat) := [.emit [0], .subscribe "b", .emit [1]]
    let during : List (BusAction Nat) :=
      [.emit [2, 3], .receive "a" (some 1), .unsubscribe "b", .emit [4, 5, 6, 7, 8],
        .receive "a" (some 2), .close, .subscribe "a", .receive "a" none]
    (1 ≤ 3 ∧ Bus.new 3 = .ok bus ∧ before.any BusAction.closes = false ∧ Lasts "a" false during) ∧
      Delivers 3 bus before "a" during ∧ (joined bus before "a").heard "a" during =
        [.message 2, .lagged 2, .message 5, .message 6, .message 7, .message 8, .closed] := by
  intro bus before during
  have hsize : 1 ≤ 3 := by decide
  have hnew : Bus.new 3 = .ok bus := rfl
  have hlasts : Lasts "a" false during := by
    simp [during, Lasts, Spares, BusAction.closes]
  refine ⟨⟨hsize, hnew, rfl, hlasts⟩, ?_, by decide⟩
  rcases delivers (α := Nat) hsize with ⟨-, fault, herror⟩ | ⟨made, hmade, h⟩
  · cases hnew.symm.trans herror
  · cases hnew.symm.trans hmade
    exact h before during "a" rfl hlasts

end Hub

end StatePool
