import JobBoard.Growth.Cooldown
import JobBoard.Lib.OrderBy
import JobBoard.Lib.Trace

/-!
# Notifications

`NotificationService` beside the purge of old notifications. `notification_life` is the life of a
notification in every run: nothing changes in it but `readAt`, once, by its recipient; and it is
purged only after that. `counted_once`: no notification is in the answers of two calls of
`markAllRead`.
-/

set_option autoImplicit false

namespace JobBoard.Growth.Notifications

open Txn Prog
open Cvtheque (Micros toDate ofDate)

structure Notification extends Growth.Notification where
  id : Id
  deriving DecidableEq, Repr

structure CreateNotificationParams where
  recipientUserId : Id
  type : NotificationType
  title : String
  body : String
  deriving DecidableEq, Repr

/-! ## The database -/

structure Db where
  clock : Micros
  notifications : Table fun n : Notification => n.id

def Db.empty : Db := ⟨0, ∅⟩

/-- `Date.now()`. -/
def Db.now (db : Db) : Time := toDate db.clock

/-- `{ recipientUserId, readAt: IsNull() }`. -/
def Notification.isUnreadOf (recipientUserId : Id) (n : Notification) : Bool :=
  decide (n.recipientUserId = recipientUserId) && n.readAt.isNone

def Notification.read (at_ : Time) (n : Notification) : Notification :=
  { n with readAt := some (ofDate at_) }

inductive Write where
  | tick (us : Nat)
  | insertNotification (n : Notification)
  | markRead (id recipientUserId : Id) (readAt : Time)
  | markAllRead (recipientUserId : Id) (readAt : Time)
  | purgeNotifications (cutoff : Time)
  deriving DecidableEq, Repr

def Write.apply (db : Db) : Write → Db
  | tick us => { db with clock := db.clock + us }
  | insertNotification n => { db with notifications := db.notifications.insert n }
  | markRead id recipientUserId readAt =>
    { db with
      notifications := db.notifications.modifyWhere
        (fun n => decide (n.id = id) && n.isUnreadOf recipientUserId) (·.read readAt)
        fun _ => rfl }
  | markAllRead recipientUserId readAt =>
    { db with
      notifications := db.notifications.modifyWhere (·.isUnreadOf recipientUserId)
        (·.read readAt) fun _ => rfl }
  | purgeNotifications cutoff =>
    { db with notifications := db.notifications.deleteWhere fun n => n.isReadBefore cutoff }

def store : Store Db Write Unit := ⟨Write.apply, fun _ => []⟩

/-- A service method: a program over `Db`. -/
abbrev M (α : Type) := Prog Db Write Error α

/-! ## The services -/

namespace NotificationService

/-- The row; the email is best effort and left out. -/
def create (uuid : Id) (params : CreateNotificationParams) : M Notification :=
  query fun db =>
    let n : Notification :=
      { id := uuid
        recipientUserId := params.recipientUserId
        type := params.type
        title := params.title
        body := params.body
        readAt := none
        createdAt := db.clock }
    if (db.notifications.get? uuid).isSome then
      .error (uniqueViolation "PK_6a72c3c0f683f6462415e653c3a")
    else .ok ([.insertNotification n], n)

/-- Newest first. -/
def newestFirst (ns : List Notification) : List Notification :=
  ns.insertionSort fun a b => b.createdAt ≤ a.createdAt

def listForUser (recipientUserId : Id) : M (List Notification) :=
  select fun db =>
    newestFirst (db.notifications.rows.filter (·.recipientUserId = recipientUserId))

def markRead (recipientUserId id : Id) : M Unit := do
  let readAt ← select Db.now
  write fun _ => [.markRead id recipientUserId readAt]

/-- The number of rows that the `UPDATE` affects. -/
def markAllRead (recipientUserId : Id) : M Nat := do
  let readAt ← select Db.now
  query fun db => .ok ([.markAllRead recipientUserId readAt],
    db.notifications.rows.countP (·.isUnreadOf recipientUserId))

end NotificationService

namespace DataRetentionService

/-- The purge of read notifications; a failure of it is caught. -/
def sweep (config : Config) : M Nat := do
  let cutoff ← select fun db => db.now - config.notificationRetentionDays * 24 * 60 * 60 * 1000
  (query fun db => .ok ([.purgeNotifications cutoff],
    db.notifications.rows.countP (·.isReadBefore cutoff)) : M Nat).caught fun _ => ret 0

end DataRetentionService

/-! ## The system -/

inductive Op where
  | clock (us : Nat)
  | create (params : CreateNotificationParams)
  | listForUser (recipientUserId : Id)
  | markRead (recipientUserId id : Id)
  | markAllRead (recipientUserId : Id)
  | sweep
  deriving DecidableEq, Repr

inductive Result where
  | unit
  | notification (n : Notification)
  | notifications (ns : List Notification)
  | updated (n : Nat)
  deriving DecidableEq, Repr

def program (config : Config) (uuid : Id) : Op → M Result
  | .clock us => do
    write fun _ => [.tick us]
    return .unit
  | .create params => do
    return .notification (← NotificationService.create uuid params)
  | .listForUser recipientUserId => do
    return .notifications (← NotificationService.listForUser recipientUserId)
  | .markRead recipientUserId id => do
    NotificationService.markRead recipientUserId id
    return .unit
  | .markAllRead recipientUserId => do
    return .updated (← NotificationService.markAllRead recipientUserId)
  | .sweep => do
    return .updated (← DataRetentionService.sweep config)

def system (config : Config) : System Db Write Unit Error Result Op :=
  ⟨store, program config, isFault⟩

abbrev RunState := State Db Write Error Result Op

/-- `n` steps of call `i`. -/
def steps (i n : Nat) : List (Label Error Op) := List.replicate n (.step i)

abbrev Log := List (Txn.Group Write)

/-- The committed database at a moment of the run. -/
abbrev Db.at (d₀ : Db) (L : Log) : Db := replay store d₀ L

/-! ## What the calls publish -/

/-- The statement of a call of `op`, at the log `L`. -/
def Issues (config : Config) (d₀ : Db) (i : Nat) (op : Op) (L : Log) : Write → Prop
  | .tick _ => ∃ us, op = .clock us
  | .insertNotification n => n.id = i ∧ n.readAt = none ∧
      (d₀.at L).notifications.get? i = none ∧
        op = .create ⟨n.recipientUserId, n.type, n.title, n.body⟩
  | .markRead id recipientUserId _ => op = .markRead recipientUserId id
  | .markAllRead recipientUserId _ => op = .markAllRead recipientUserId
  | .purgeNotifications cutoff => op = .sweep ∧ ∃ A, A <+: L ∧
      cutoff = (d₀.at A).now - config.notificationRetentionDays * 24 * 60 * 60 * 1000

/-- It is the only one of its call. -/
def Guarantee (config : Config) (d₀ : Db) (i : Nat) (op : Op) (L : Log) (w : Write) : Prop :=
  (∀ g ∈ L, g.call ≠ i) ∧ Issues config d₀ i op L w

/-- What a call that has returned knows. -/
def Returns (d₀ : Db) (i : Nat) (op : Op) (L : Log) (r : Result) : Prop :=
  match op with
  | .create params => ∃ A n, r = .notification n ∧ WrittenAt L A i (.insertNotification n) ∧
      n.recipientUserId = params.recipientUserId
  | .markAllRead recipientUserId => ∃ A readAt,
      WrittenAt L A i (.markAllRead recipientUserId readAt) ∧ r = .updated
        ((d₀.at A).notifications.rows.countP (·.isUnreadOf recipientUserId))
  | .listForUser recipientUserId => ∃ A, A <+: L ∧ r = .notifications
      (NotificationService.newestFirst
        ((d₀.at A).notifications.rows.filter (·.recipientUserId = recipientUserId)))
  | _ => True

section

variable {config : Config} {d₀ : Db} {i : Nat} {op : Op} {L : Log}

theorem silent_others {L' : Log} (h : ∀ g ∈ L, g.call ≠ i) (hl : ByOthers i L L') :
    ∀ g ∈ L', g.call ≠ i := by
  obtain ⟨gs, rfl, hgs⟩ := hl
  exact fun g hg => (List.mem_append.1 hg).elim (h g) (hgs g)

theorem followed (config : Config) (d₀ : Db) {ok : RunState → Label Error Op → Prop} :
    Followed (system config) ok d₀ (Guarantee config d₀) (Returns d₀) fun _ _ _ => True where
  prog := by
    intro i op L hsilent
    cases op with
    | clock us =>
      refine follows_bind.2 (follows_write fun L₁ h₁ => ⟨⟨silent_others hsilent h₁, us, rfl⟩, ?_⟩)
      trivial
    | create params =>
      refine follows_bind.2 (follows_query (fun _ _ _ _ => trivial) fun L₁ ws n h₁ hf => ?_)
      split at hf
      · cases hf
      · next hfree =>
        cases hf
        refine .inr ⟨_, rfl, ⟨silent_others hsilent h₁, rfl, rfl, ?_, rfl⟩, ?_⟩
        · exact Option.not_isSome_iff_eq_none.1 hfree
        · exact ⟨L₁, _, rfl, writtenAt_self _ _ _, rfl⟩
    | listForUser recipientUserId =>
      refine follows_bind.2 (follows_select fun L₁ h₁ => ?_)
      exact ⟨L₁, List.prefix_rfl, rfl⟩
    | markRead recipientUserId id =>
      refine follows_bind.2 (follows_bind.2 (follows_select fun L₁ h₁ => ?_))
      refine follows_write fun L₂ h₂ => ⟨⟨silent_others hsilent (h₁.trans h₂), rfl⟩, ?_⟩
      trivial
    | markAllRead recipientUserId =>
      refine follows_bind.2 (follows_bind.2 (follows_select fun L₁ h₁ => ?_))
      refine follows_query (fun _ _ _ _ => trivial) fun L₂ ws n h₂ hf => ?_
      cases hf
      refine .inr ⟨_, rfl, ⟨silent_others hsilent (h₁.trans h₂), rfl⟩, ?_⟩
      exact ⟨L₂, _, writtenAt_self _ _ _, rfl⟩
    | sweep =>
      refine follows_bind.2 (follows_bind.2 (follows_select fun L₁ h₁ => ?_))
      refine promises_caught (promises_query fun L₂ ws n h₂ hf => ?_) fun L₂ e _ => trivial
      cases hf
      refine .inr ⟨_, rfl, ⟨silent_others hsilent (h₁.trans h₂), rfl, L₁, h₂.onto, rfl⟩, trivial⟩
  mono := by
    intro i op L g r _ h
    have hl : L <+: L ++ [g] := List.prefix_append _ _
    cases op with
    | create params =>
      obtain ⟨A, n, hr, hw, hn⟩ := h
      exact ⟨A, n, hr, hw.mono hl, hn⟩
    | markAllRead recipientUserId =>
      obtain ⟨A, readAt, hw, hr⟩ := h
      exact ⟨A, readAt, hw.mono hl, hr⟩
    | listForUser recipientUserId =>
      obtain ⟨A, hA, hr⟩ := h
      exact ⟨A, hA.trans hl, hr⟩
    | _ => trivial
  others _ _ := trivial
  fault _ _ _ _ := trivial

theorem published {s : RunState} (h : (system config).Reachable d₀ s) {l : Log}
    {g : Txn.Group Write} (hl : l ++ [g] <+: s.log) :
    ∃ op w, g = ⟨g.call, false, [w]⟩ ∧ s.ops[g.call]? = some op ∧
      Guarantee config d₀ g.call op l w := by
  obtain ⟨op, w, t, hg, hop, ht⟩ := (followed config d₀).published h.within hl
  exact ⟨op, w, hg, hop, ht.promised⟩

theorem at_snoc (L : Log) (i : Nat) (w : Write) :
    d₀.at (L ++ [⟨i, false, [w]⟩]) = store.apply (d₀.at L) w := replay_snoc ..

end

/-! ## One statement -/

/-- The time at which the statement marks the notification as read. -/
def Write.marks (n : Notification) : Write → Option Time
  | .markRead id recipientUserId readAt =>
    if n.id = id ∧ n.isUnreadOf recipientUserId = true then some readAt else none
  | .markAllRead recipientUserId readAt =>
    if n.isUnreadOf recipientUserId = true then some readAt else none
  | _ => none

section

variable {db : Db} {w : Write} {id : Id} {n : Notification}

theorem isUnreadOf_iff {recipientUserId : Id} :
    n.isUnreadOf recipientUserId = true ↔
      n.recipientUserId = recipientUserId ∧ n.readAt = none := by
  simp [Notification.isUnreadOf]

/-- What a statement does to a notification. -/
theorem notification_apply (h : db.notifications.get? id = some n) (w : Write) :
    (w.marks n = none ∧ (store.apply db w).notifications.get? id = some n) ∨
    (∃ readAt, w.marks n = some readAt ∧
      (store.apply db w).notifications.get? id = some (n.read readAt)) ∨
    ∃ cutoff, w = .purgeNotifications cutoff ∧ n.isReadBefore cutoff = true ∧
      (store.apply db w).notifications.get? id = none := by
  have hid := Table.key_of_get? h
  cases w with
  | tick us => exact .inl ⟨rfl, h⟩
  | insertNotification n' => exact .inl ⟨rfl, Table.get?_insert_of_some h⟩
  | markRead id' recipientUserId readAt =>
    have hget : (store.apply db (.markRead id' recipientUserId readAt)).notifications.get? id =
        (db.notifications.get? id).map fun n =>
          if (decide (n.id = id') && n.isUnreadOf recipientUserId) = true then n.read readAt
          else n := Table.get?_modifyWhere (Notification.read readAt) fun _ => rfl
    rw [h] at hget
    simp only [Write.marks]
    by_cases hmatch : n.id = id' ∧ n.isUnreadOf recipientUserId = true
    · rw [if_pos hmatch]
      refine .inr (.inl ⟨readAt, rfl, hget.trans ?_⟩)
      simp [hmatch.1, hmatch.2]
    · rw [if_neg hmatch]
      refine .inl ⟨rfl, hget.trans ?_⟩
      rw [Option.map_some, if_neg (by simpa using hmatch)]
  | markAllRead recipientUserId readAt =>
    have hget : (store.apply db (.markAllRead recipientUserId readAt)).notifications.get? id =
        (db.notifications.get? id).map fun n =>
          if n.isUnreadOf recipientUserId = true then n.read readAt else n :=
      Table.get?_modifyWhere (Notification.read readAt) fun _ => rfl
    rw [h, Option.map_some] at hget
    simp only [Write.marks]
    split at hget
    · next hmatch =>
      rw [if_pos hmatch]
      exact .inr (.inl ⟨readAt, rfl, hget⟩)
    · next hmatch =>
      rw [if_neg hmatch]
      exact .inl ⟨rfl, hget⟩
  | purgeNotifications cutoff =>
    have hget : (store.apply db (.purgeNotifications cutoff)).notifications.get? id =
        (db.notifications.get? id).filter fun n => !n.isReadBefore cutoff :=
      Table.get?_deleteWhere _
    rw [h, Option.filter_some] at hget
    cases hold : n.isReadBefore cutoff with
    | true =>
      rw [hold] at hget
      exact .inr (.inr ⟨cutoff, rfl, hold, hget⟩)
    | false =>
      rw [hold] at hget
      exact .inl ⟨rfl, hget⟩

/-- A notification that is not there comes with an insertion. -/
theorem notification_new (h : db.notifications.get? id = none)
    (hn : (store.apply db w).notifications.get? id = some n) : w = .insertNotification n := by
  cases w with
  | insertNotification n' =>
    by_cases hid : n'.id = id
    · subst hid
      have hget : (store.apply db (.insertNotification n')).notifications.get? n'.id = some n' :=
        Table.get?_insert_self h
      rw [hget] at hn
      cases hn
      rfl
    · have hget : (store.apply db (.insertNotification n')).notifications.get? id =
          db.notifications.get? id := Table.get?_insert_ne hid
      rw [hget, h] at hn
      cases hn
  | markRead id' recipientUserId readAt =>
    have hget : (store.apply db (.markRead id' recipientUserId readAt)).notifications.get? id =
        (db.notifications.get? id).map _ :=
      Table.get?_modifyWhere (Notification.read readAt) fun _ => rfl
    rw [hget, h] at hn
    cases hn
  | markAllRead recipientUserId readAt =>
    have hget : (store.apply db (.markAllRead recipientUserId readAt)).notifications.get? id =
        (db.notifications.get? id).map _ :=
      Table.get?_modifyWhere (Notification.read readAt) fun _ => rfl
    rw [hget, h] at hn
    cases hn
  | purgeNotifications cutoff =>
    have hget : (store.apply db (.purgeNotifications cutoff)).notifications.get? id =
        (db.notifications.get? id).filter _ := Table.get?_deleteWhere _
    rw [hget, h] at hn
    cases hn
  | tick us =>
    rw [show (store.apply db (.tick us)).notifications = db.notifications from rfl, h] at hn
    cases hn

/-- Only an unread notification is marked, for its recipient. -/
theorem marks_some {readAt : Time} (h : w.marks n = some readAt) : n.readAt = none ∧
    (w = .markRead n.id n.recipientUserId readAt ∨ w = .markAllRead n.recipientUserId readAt) := by
  cases w with
  | markRead id' recipientUserId at_ =>
    simp only [Write.marks] at h
    split at h
    · next hmatch =>
      obtain ⟨rfl, hunread⟩ := hmatch
      obtain ⟨rfl, hnone⟩ := isUnreadOf_iff.1 hunread
      cases h
      exact ⟨hnone, .inl rfl⟩
    · cases h
  | markAllRead recipientUserId at_ =>
    simp only [Write.marks] at h
    split at h
    · next hunread =>
      obtain ⟨rfl, hnone⟩ := isUnreadOf_iff.1 hunread
      cases h
      exact ⟨hnone, .inr rfl⟩
    · cases h
  | _ => cases h

end

/-! ## The life of a notification -/

section

variable {config : Config} {d₀ : Db} {s : RunState} {A B : Log} {id : Id} {n n' : Notification}

/-- Since `A` the notification was read by its recipient. -/
def ReadSince (s : RunState) (A B : Log) (n n' : Notification) : Prop :=
  n.readAt = none ∧ ∃ C j w readAt, A <+: C ∧ WrittenAt B C j w ∧ n' = n.read readAt ∧
    (s.ops[j]? = some (.markRead n.recipientUserId n.id) ∨
      s.ops[j]? = some (.markAllRead n.recipientUserId))

/-- Since `A` it was purged, read and older than the retention. -/
def PurgedSince (config : Config) (d₀ : Db) (s : RunState) (A B : Log) (n : Notification) : Prop :=
  n.readAt ≠ none ∧ ∃ C j cutoff, A <+: C ∧ WrittenAt B C j (.purgeNotifications cutoff) ∧
    s.ops[j]? = some .sweep ∧
      n.createdAt + config.notificationRetentionDays * microsPerDay < (d₀.at C).clock

theorem ReadSince.mono {L : Log} (h : ReadSince s A B n n') (hl : B <+: L) :
    ReadSince s A L n n' := by
  obtain ⟨hnone, C, j, w, readAt, hC, hw, hread, hcall⟩ := h
  exact ⟨hnone, C, j, w, readAt, hC, hw.mono hl, hread, hcall⟩

theorem clock_mono {L : Log} (hl : A <+: L) : (d₀.at A).clock ≤ (d₀.at L).clock := by
  refine replay_keeps (P := fun db : Db => (d₀.at A).clock ≤ db.clock) (fun db w h => ?_) hl
    (Int.le_refl _)
  refine Int.le_trans h ?_
  cases w with
  | tick us => exact Int.le_add_of_nonneg_right (Int.natCast_nonneg us)
  | _ => exact Int.le_refl _

theorem purged_old {cutoff : Time} {L : Log} (hold : n.isReadBefore cutoff = true) (hA : A <+: L)
    (hcutoff : cutoff = (d₀.at A).now - config.notificationRetentionDays * 24 * 60 * 60 * 1000) :
    n.readAt ≠ none ∧
      n.createdAt + config.notificationRetentionDays * microsPerDay < (d₀.at L).clock := by
  simp only [Notification.isReadBefore, Bool.and_eq_true, decide_eq_true_eq,
    Option.isSome_iff_ne_none] at hold
  have hle := cutoff_le (d₀.at A).clock config.notificationRetentionDays
  have hclock : (d₀.at A).clock ≤ (d₀.at L).clock := clock_mono hA
  rw [hcutoff] at hold
  have hlt : n.createdAt < (d₀.at A).clock - config.notificationRetentionDays * microsPerDay :=
    Int.lt_of_lt_of_le hold.2 hle
  exact ⟨hold.1, Int.lt_of_lt_of_le (Int.add_lt_of_lt_sub_right hlt) hclock⟩

/-- A notification does not change until its recipient reads it, nor is it purged; read, it stays
as it is until it is older than the retention. -/
theorem notification_life (h : (system config).Reachable d₀ s) (hAB : A <+: B) (hB : B <+: s.log)
    (hn : (d₀.at A).notifications.get? id = some n) :
    ∃ n', (n' = n ∨ ReadSince s A B n n') ∧
      ((d₀.at B).notifications.get? id = some n' ∨ PurgedSince config d₀ s A B n') := by
  refine along_log_from (L := s.log) (A := A)
    (I := fun L => ∃ n', (n' = n ∨ ReadSince s A L n n') ∧
      ((d₀.at L).notifications.get? id = some n' ∨ PurgedSince config d₀ s A L n'))
    ⟨n, .inl rfl, .inl hn⟩ (fun l g hAl hl ih => ?_) B hAB hB
  obtain ⟨n', hsince, hnow⟩ := ih
  have hmono : l <+: l ++ [g] := List.prefix_append _ _
  rcases hnow with hnow | ⟨hread, C, j, cutoff, hC, hw, hsweep⟩
  · obtain ⟨op, w, hg, hop, -, hissues⟩ := published h hl
    have hw : WrittenAt (l ++ [g]) l g.call w := by
      rw [hg]
      exact writtenAt_self _ _ _
    rw [hg, at_snoc]
    rw [hg] at hmono
    rcases notification_apply hnow w with ⟨-, hkept⟩ | ⟨readAt, hmarks, hmarked⟩ |
      ⟨cutoff, rfl, hold, -⟩
    · exact ⟨n', hsince.imp_right (·.mono hmono), .inl hkept⟩
    · obtain ⟨hunread, hwrite⟩ := marks_some hmarks
      rcases hsince with rfl | ⟨-, C, j, w', at_, -, -, rfl, -⟩
      · refine ⟨_, .inr ⟨hunread, l, g.call, w, readAt, hAl, hg ▸ hw, rfl, ?_⟩, .inl hmarked⟩
        rcases hwrite with rfl | rfl
        · cases hissues
          exact .inl hop
        · cases hissues
          exact .inr hop
      · cases hunread
    · obtain ⟨rfl, A', hA', hcutoff⟩ := hissues
      obtain ⟨hread, hage⟩ := purged_old hold hA' hcutoff
      exact ⟨n', hsince.imp_right (·.mono hmono),
        .inr ⟨hread, l, g.call, cutoff, hAl, hg ▸ hw, hop, hage⟩⟩
  · exact ⟨n', hsince.imp_right (·.mono hmono),
      .inr ⟨hread, C, j, cutoff, hC, hw.mono hmono, hsweep⟩⟩

/-! ## Counts -/

/-- The uuids that the calls have drawn are new. -/
def NewIds (d₀ : Db) (s : RunState) : Prop :=
  ∀ i, i < s.ops.length → d₀.notifications.get? i = none

/-- At the moment `C` call `j` has marked the notification as read. -/
def MarkedAt (d₀ : Db) (L : Log) (id : Id) (C : Log) (j : Nat) : Prop :=
  ∃ w n readAt, WrittenAt L C j w ∧ (d₀.at C).notifications.get? id = some n ∧
    w.marks n = some readAt

/-- A notification was there at the start, or its call has inserted it. -/
theorem notification_born (h : (system config).Reachable d₀ s) (hA : A <+: s.log)
    (hn : (d₀.at A).notifications.get? id = some n) :
    d₀.notifications.get? id ≠ none ∨ ∃ g ∈ A, g.call = id := by
  refine along_log (L := s.log) (I := fun L => ∀ n, (d₀.at L).notifications.get? id = some n →
    d₀.notifications.get? id ≠ none ∨ ∃ g ∈ L, g.call = id) (fun n hn => ?_)
    (fun l g hl ih n hn => ?_) A hA n hn
  · exact .inl fun hnone => Option.some_ne_none n (hn.symm.trans hnone)
  · obtain ⟨op, w, hg, hop, -, hissues⟩ := published h hl
    cases hold : (d₀.at l).notifications.get? id with
    | some n₀ =>
      rcases ih n₀ hold with hstart | ⟨g', hg', hid⟩
      · exact .inl hstart
      · exact .inr ⟨g', List.mem_append_left _ hg', hid⟩
    | none =>
      rw [hg, at_snoc] at hn
      obtain rfl := notification_new hold hn
      have hid : n.id = id := Table.key_of_get? hn
      exact .inr ⟨g, by simp, hissues.1.symm.trans hid⟩

/-- Once read, a notification is not unread again. -/
theorem stays_read (h : (system config).Reachable d₀ s) (hnew : NewIds d₀ s) (hAB : A <+: B)
    (hB : B <+: s.log) (hn : (d₀.at A).notifications.get? id = some n) (hread : n.readAt ≠ none) :
    ∀ n', (d₀.at B).notifications.get? id = some n' → n'.readAt ≠ none := by
  refine along_log_from (L := s.log) (A := A)
    (I := fun L => ∀ n', (d₀.at L).notifications.get? id = some n' → n'.readAt ≠ none)
    (fun n' hn' => ?_) (fun l g hAl hl ih n' hn' => ?_) B hAB hB
  · rw [hn] at hn'
    cases hn'
    exact hread
  · obtain ⟨op, w, hg, hop, hsilent, hissues⟩ := published h hl
    rw [hg, at_snoc] at hn'
    cases hold : (d₀.at l).notifications.get? id with
    | some n₀ =>
      have hread₀ := ih n₀ hold
      rcases notification_apply hold w with ⟨-, hkept⟩ | ⟨readAt, hmarks, -⟩ | ⟨_, -, -, hgone⟩
      · rw [hkept] at hn'
        cases hn'
        exact hread₀
      · exact absurd (marks_some hmarks).1 hread₀
      · rw [hgone] at hn'
        cases hn'
    | none =>
      -- the call of this number has inserted it before, and inserts nothing else
      obtain rfl := notification_new hold hn'
      have hid : n'.id = id := Table.key_of_get? hn'
      have hcall : g.call = id := hissues.1.symm.trans hid
      rcases notification_born h (hAl.trans ((List.prefix_append _ _).trans hl)) hn with hstart |
        ⟨g', hg', hcall'⟩
      · exact absurd (hnew id (hcall ▸ (List.getElem?_eq_some_iff.1 hop).1)) hstart
      · exact absurd (hcall'.trans hcall.symm) (hsilent g' (hAl.subset hg'))

/-- A call publishes once. -/
theorem writtenAt_once (h : (system config).Reachable d₀ s) {C C' : Log} {j : Nat} {w w' : Write}
    (hw : WrittenAt s.log C j w) (hw' : WrittenAt s.log C' j w') : C = C' ∧ w = w' := by
  have order : ∀ {C C' : Log} {w w' : Write}, WrittenAt s.log C' j w' → ¬ WrittenAt C' C j w := by
    intro C C' w w' hw' hearlier
    obtain ⟨op, w'', hg, hop, hsilent, -⟩ := published h hw'
    exact hsilent _ (hearlier.subset (List.mem_append_right _ (List.mem_singleton_self _))) rfl
  rcases hw.cases hw' with ⟨hC, -, heq⟩ | hearlier | hearlier
  · exact ⟨hC, heq⟩
  · exact (order hw' hearlier).elim
  · exact (order hw hearlier).elim

theorem markedAt_once (h : (system config).Reachable d₀ s) (hnew : NewIds d₀ s) {C C' : Log}
    {j j' : Nat} (hm : MarkedAt d₀ s.log id C j) (hm' : MarkedAt d₀ s.log id C' j') :
    C = C' ∧ j = j' := by
  have order : ∀ {C C' : Log} {j j' : Nat} {w : Write} {n : Notification} {readAt : Time},
      (d₀.at C).notifications.get? id = some n → w.marks n = some readAt → WrittenAt C' C j w →
      ¬ MarkedAt d₀ s.log id C' j' := by
    rintro C C' j j' w n readAt hn hmarks hearlier ⟨w', n', readAt', hw', hn', hmarks'⟩
    have hC' : C' <+: s.log := hw'.onto
    have hread : (d₀.at (C ++ [⟨j, false, [w]⟩])).notifications.get? id = some (n.read readAt) := by
      rw [at_snoc]
      rcases notification_apply hn w with ⟨hnone, -⟩ | ⟨readAt₁, hsome, hmarked⟩ | ⟨_, rfl, -, -⟩
      · rw [hmarks] at hnone
        cases hnone
      · rw [hmarks] at hsome
        cases hsome
        exact hmarked
      · cases hmarks
    exact stays_read h hnew hearlier hC' hread (Option.some_ne_none _) n' hn' (marks_some hmarks').1
  have hm₁ := hm
  have hm₂ := hm'
  obtain ⟨w, n, readAt, hw, hn, hmarks⟩ := hm₁
  obtain ⟨w', n', readAt', hw', hn', hmarks'⟩ := hm₂
  rcases hw.cases hw' with ⟨hC, hj, -⟩ | hearlier | hearlier
  · exact ⟨hC, hj⟩
  · exact (order hn hmarks hearlier hm').elim
  · exact (order hn' hmarks' hearlier hm).elim

/-- A notification is marked once, by one call; and what `markAllRead` answers is the number of
those that it has marked. -/
theorem counted_once (h : (system config).Reachable d₀ s) (hnew : NewIds d₀ s) :
    (∀ {id C j C' j'}, MarkedAt d₀ s.log id C j → MarkedAt d₀ s.log id C' j' →
      C = C' ∧ j = j') ∧
    ∀ {i recipientUserId count}, s.ops[i]? = some (.markAllRead recipientUserId) →
      s.call i = .done (.ok (.updated count)) →
      ∃ ids : List Id, ids.Nodup ∧ ids.length = count ∧
        ∀ id, id ∈ ids ↔ ∃ C, MarkedAt d₀ s.log id C i := by
  refine ⟨fun hm hm' => markedAt_once h hnew hm hm', fun {i u count} hop hdone => ?_⟩
  obtain ⟨A, readAt, hw, hcount⟩ := (followed config d₀).done h.within hop hdone
  cases hcount
  refine ⟨((d₀.at A).notifications.rows.filter (·.isUnreadOf u)).map (·.id), ?_, ?_, fun id => ?_⟩
  · exact (d₀.at A).notifications.nodup.sublist (List.filter_sublist.map _)
  · rw [List.length_map, List.countP_eq_length_filter]
  · simp only [List.mem_map, List.mem_filter]
    constructor
    · rintro ⟨n, ⟨hmem, hunread⟩, rfl⟩
      refine ⟨A, _, n, readAt, hw, Table.get?_of_mem hmem, ?_⟩
      simp only [Write.marks, hunread, if_true]
    · rintro ⟨C, w, n, at_, hw', hn, hmarks⟩
      obtain ⟨rfl, rfl⟩ := writtenAt_once h hw hw'
      simp only [Write.marks] at hmarks
      split at hmarks
      · next hunread => exact ⟨n, ⟨Table.mem_of_get? hn, hunread⟩, Table.key_of_get? hn⟩
      · cases hmarks

end

/-- A notification is read by `markAllRead`, and purged 91 days later. -/
def readAndPurged : List (Label Error Op) :=
  .spawn (.create ⟨5, .newMessage, "Nouveau message", "Bonjour"⟩) :: steps 0 2 ++
    .spawn (.markAllRead 5) :: steps 1 3 ++
    .spawn (.clock 7862400000000) :: steps 2 2 ++ .spawn .sweep :: steps 3 3

theorem notification_life_purged : ∃ (s : RunState) (n n' : Notification),
    (system .default).Reachable .empty s ∧ n.readAt = none ∧
      (n' = n ∨ ReadSince s (s.log.take 1) s.log n n') ∧
      PurgedSince .default .empty s (s.log.take 1) s.log n' := by
  have hrun : (((system .default).runLabels .all (State.init .empty) readAndPurged).map fun s =>
      ((Db.empty.at (s.log.take 1)).notifications.get? 0,
        (Db.empty.at s.log).notifications.get? 0)) =
      some (some ⟨⟨5, .newMessage, "Nouveau message", "Bonjour", none, 0⟩, 0⟩, none) := by rfl
  obtain ⟨s, hs, he⟩ := System.reach_of_run hrun
  simp only [Prod.mk.injEq] at he
  obtain ⟨hn, hgone⟩ := he
  obtain ⟨n', hsince, hnow⟩ :=
    notification_life hs (List.take_prefix 1 s.log) List.prefix_rfl hn
  refine ⟨s, _, n', hs, rfl, hsince, ?_⟩
  rcases hnow with hnow | hpurged
  · rw [hgone] at hnow
    cases hnow
  · exact hpurged

theorem counted_once_purged : ∃ (s : RunState) (ids : List Id),
    (system .default).Reachable .empty s ∧ ids.length = 1 ∧
      ∀ id, id ∈ ids ↔ ∃ C, MarkedAt .empty s.log id C 1 := by
  have hrun : (((system .default).runLabels .all (State.init .empty) readAndPurged).map fun s =>
      (s.ops[1]?, s.call 1)) = some (some (.markAllRead 5), .done (.ok (.updated 1))) := by rfl
  obtain ⟨s, hs, he⟩ := System.reach_of_run hrun
  simp only [Prod.mk.injEq] at he
  obtain ⟨hop, hdone⟩ := he
  obtain ⟨ids, -, hlength, hids⟩ := (counted_once hs fun _ _ => rfl).2 hop hdone
  exact ⟨s, ids, hs, hlength, hids⟩

end JobBoard.Growth.Notifications
