import Mathlib.Data.List.Induction
import JobBoard.Billing.Statements
import JobBoard.Lib.Sound
import JobBoard.Services.System

/-!
# Exactly-once webhooks

Any number of deliveries of any events, interleaved. A delivery relies on
markers staying, and on nobody inserting a marker whose key it holds
(`MarkerRely`); what it commits is the marker of its event, which was not there,
together with all the writes of one complete run of `applyEffect`
(`deliverySpec`). So the commits of an event exclude each other
(`commits_once`), and a delivery that answers `alreadyProcessed` has found the
marker of another commit.
-/

set_option autoImplicit false

namespace JobBoard

open Txn Prog PaymentWebhookService

def Op.isDeliveryOrClock : Op → Bool
  | .handleWebhook _ => true
  | .clock _ => true
  | _ => false

/-- Webhook deliveries, while time passes. -/
def deliveryRuns : Runs Db Write Op := ⟨fun _ op => op.isDeliveryOrClock, fun _ _ _ => true, false⟩

/-! ## Rely -/

structure MarkerRely (h : List Key) (d d' : Db) : Prop where
  kept : ∀ m ∈ d.processedWebhookEvents.rows, m ∈ d'.processedWebhookEvents.rows
  marker : ∀ m ∈ d'.processedWebhookEvents.rows, .row "processed_webhook_events" m.id ∈ h ∨
    .providerEventId m.providerEventId ∈ h → m ∈ d.processedWebhookEvents.rows

namespace MarkerRely

theorem of_eq {h : List Key} {d d' : Db}
    (he : d'.processedWebhookEvents = d.processedWebhookEvents) : MarkerRely h d d' :=
  ⟨fun m hm => by rw [he]; exact hm, fun m hm _ => by rw [he] at hm; exact hm⟩

theorem trans {h : List Key} {a b c : Db} (hab : MarkerRely h a b) (hbc : MarkerRely h b c) :
    MarkerRely h a c :=
  ⟨fun m hm => hbc.kept m (hab.kept m hm),
    fun m hm hk => hab.marker m (hbc.marker m hm hk) hk⟩

theorem mono {h k : List Key} {d d' : Db} (hr : MarkerRely (h ++ k) d d') : MarkerRely h d d' :=
  ⟨hr.kept, fun m hm hk => hr.marker m hm
    (hk.imp (List.mem_append_left _) (List.mem_append_left _))⟩

end MarkerRely

/-- The write leaves the markers alone. -/
def Write.NoMarker : Write → Prop
  | .insertProcessedWebhookEvent _ => False
  | _ => True

theorem noMarker_markers {ws : List Write} (h : ∀ w ∈ ws, w.NoMarker) (d : Db) :
    (store.applyAll d ws).processedWebhookEvents = d.processedWebhookEvents := by
  induction ws generalizing d with
  | nil => rfl
  | cons w ws ih =>
    rw [Store.applyAll_cons, ih fun x hx => h x (List.mem_cons_of_mem _ hx)]
    have hw := h w List.mem_cons_self
    cases w <;> first | rfl | exact hw.elim

theorem markerViolation_none {m : ProcessedWebhookEvent} {d : Db} :
    markerViolation m d = none ↔ ∀ x ∈ d.processedWebhookEvents.rows,
      x.id ≠ m.id ∧ x.providerEventId ≠ m.providerEventId := by
  unfold markerViolation
  rw [Table.violation_none]
  simp only [beq_iff_eq, ne_eq]

theorem markerViolation_constraint {m : ProcessedWebhookEvent} {d : Db} {c : String}
    (h : markerViolation m d = some c) (hc : (uniqueViolation c).isMarkerViolation = true) :
    ∃ x ∈ d.processedWebhookEvents.rows, x.providerEventId = m.providerEventId := by
  unfold markerViolation at h
  split at h
  · cases h
    exact absurd hc (by decide)
  · split at h
    · next hany =>
      simpa using List.any_eq_true.1 hany
    · cases h

/-! ## One delivery -/

/-- The writes that the effect of an event issues on its transaction. -/
def Write.OfEffect (w : Write) : Prop := w.OfInvoicing ∨ w.OfSubscription

theorem Write.OfEffect.noMarker {w : Write} (h : w.OfEffect) : w.NoMarker := by
  cases w <;> first | trivial | exact h.elim id id

theorem Write.Outside.noMarker {w : Write} (h : w.Outside) : w.NoMarker := by
  cases w <;> trivial

def EffectWrites (ws : List Write) : Prop := ∀ w ∈ ws, w.OfEffect

def OutsideWrites (ws : List Write) : Prop := ∃ w, ws = [w] ∧ w.Outside

theorem deliveryPermits :
    Permits EffectWrites OutsideWrites fun e => e.isMarkerViolation = false := by
  refine .of_outside (by simp [EffectWrites]) (fun w hw x hx => ?_) (fun w hw => ⟨w, rfl, hw⟩)
    fun _ h _ => h
  rw [List.mem_singleton] at hx
  exact hx ▸ .inl hw

theorem applyEffect_deliveryPlain (config : Config) (uuid : Id) (event : WebhookEvent) :
    (applyEffect config uuid event).Plain EffectWrites OutsideWrites
      fun e => e.isMarkerViolation = false := by
  refine deliveryPermits.applyEffect_plain (fun w hw x hx => ?_) (fun _ h => h) config uuid event
  rw [List.mem_singleton] at hx
  exact hx ▸ .inr hw

/-- All the writes that one run of the effect made on its transaction. -/
def CompleteEffect (config : Config) (uuid : Id) (event : WebhookEvent) (es : List Write) : Prop :=
  ∃ d d', (applyEffect config uuid event).Yields store MarkerRely
    ([.insertProcessedWebhookEvent (marker uuid event)], d)
    (.insertProcessedWebhookEvent (marker uuid event) :: es, d') ()

/-- The commit `ws` of the delivery by call `uuid`: the marker of its event,
which the database `d` does not have, and all the writes of its effect. -/
def Delivered (config : Config) (uuid : Id) (delivery : Option StripeEvent) (d : Db)
    (ws : List Write) : Prop :=
  ∃ event es, StripePaymentProvider.verifyAndParseWebhook delivery = .ok event ∧
    ws = .insertProcessedWebhookEvent (marker uuid event) :: es ∧
    markerViolation (marker uuid event) d = none ∧ EffectWrites es ∧
    CompleteEffect config uuid event es

/-- The marker of the delivery's event is there. -/
def Marked (delivery : Option StripeEvent) (d : Db) : Prop :=
  ∃ event, StripePaymentProvider.verifyAndParseWebhook delivery = .ok event ∧
    ∃ m ∈ d.processedWebhookEvents.rows, m.providerEventId = event.providerEventId

/-- What a run of the effect, begun with the marker inserted, commits. -/
theorem delivered_of_yields {config : Config} {uuid : Id} {delivery : Option StripeEvent}
    {event : WebhookEvent} (hev : StripePaymentProvider.verifyAndParseWebhook delivery = .ok event)
    {d₁ d₂ : Db} {t : List Write × Db} (hm : markerViolation (marker uuid event) d₁ = none)
    (hy : (applyEffect config uuid event).Yields store MarkerRely
      ([.insertProcessedWebhookEvent (marker uuid event)], d₁) t ())
    (hd₂ : MarkerRely (store.locks t.1) t.2 d₂) : Delivered config uuid delivery d₂ t.1 := by
  obtain ⟨hr, es, ht, hes⟩ := (applyEffect_deliveryPlain config uuid event).yields
    (fun _ _ => .of_eq rfl) .trans .mono
    (fun ws h d hws => .of_eq (by
      obtain ⟨w, rfl, hw⟩ := hws
      exact noMarker_markers (by simpa using hw.noMarker) d)) hy
  refine ⟨event, es.flatten, hev, ht, ?_, ?_, d₁, t.2, ?_⟩
  · rw [markerViolation_none] at hm ⊢
    intro x hx
    by_contra hbad
    have hkey : x.id = uuid ∨ x.providerEventId = event.providerEventId := by
      by_contra hnot
      exact hbad ⟨fun h => hnot (.inl h), fun h => hnot (.inr h)⟩
    have hx' := hd₂.marker x hx (hkey.imp
      (fun h => by simp [ht, Store.locks, store, Write.keys, marker, h])
      (fun h => by simp [ht, Store.locks, store, Write.keys, marker, h]))
    exact hbad (hm x (hr.marker x hx' (hkey.imp
      (fun h => by simp [Store.locks, store, Write.keys, marker, h])
      (fun h => by simp [Store.locks, store, Write.keys, marker, h]))))
  · intro w hw
    obtain ⟨ws, hws, hw⟩ := List.mem_flatten.1 hw
    exact hes ws hws w hw
  · have heq : t = (.insertProcessedWebhookEvent (marker uuid event) :: es.flatten, t.2) :=
      Prod.ext ht rfl
    rw [← heq]
    exact hy

/-- The handler of a delivery throws all other errors again. -/
theorem onError_rethrows {e : Error} (h : e.isMarkerViolation = false) : onError e = .throw e := by
  unfold onError
  rw [show isUniqueViolation e (some PROCESSED_WEBHOOK_EVENT_UNIQUE_CONSTRAINT) = false from h]
  rfl

/-- A delivery commits once, or it ends with no commit: with an error, or
because its marker is there. -/
theorem handleWebhook_wp {config : Config} {uuid : Id} {delivery : Option StripeEvent}
    {L : Rules Db Write Key Error} (hL : L.rely = MarkerRely)
    (hfault : ∀ e, L.fault e → e.isMarkerViolation = false) {G : Bool → List Key → Db → List Write → Prop}
    {err : List (List Write) → Error → Db → Prop} {Q : Local Db Write Error → Db → Bool → Prop}
    {d : Db} (hG : ∀ k d' ws, OutsideWrites ws → G false k d' ws) (herr : ∀ e d', err [] e d')
    (hmarked : ∀ d', Marked delivery d' → Q ⟨none, []⟩ d' true)
    (hdelivered : ∀ d' ws, Delivered config uuid delivery d' ws →
      G true [] d' ws ∧ Q ⟨none, [ws]⟩ (store.applyAll d' ws) false) :
    wp store L G err (handleWebhook config uuid delivery) Q ⟨none, []⟩ d := by
  unfold handleWebhook
  cases hev : StripePaymentProvider.verifyAndParseWebhook delivery with
  | error e => exact herr e d
  | ok event =>
    have hthrow : ∀ e d', e.isMarkerViolation = false →
        wp store L G err (onError e) Q ⟨none, []⟩ d' := by
      intro e d' he
      rw [onError_rethrows he]
      exact herr e d'
    refine ⟨rfl, fun d₁ _ => ⟨fun e _ => herr e d₁, ?_⟩⟩
    rw [wp_bind, wp_bind]
    refine wp_query fun d₂ hd₂ => ⟨fun e he => hthrow e d₂ (hfault e he), fun e he => ?_,
      fun ws a hok => ?_⟩
    · split at he
      · next c hc =>
        cases he
        by_cases hmv : (uniqueViolation c).isMarkerViolation = true
        · have : onError (uniqueViolation c) = .ret true := by
            unfold onError
            rw [show isUniqueViolation (uniqueViolation c)
              (some PROCESSED_WEBHOOK_EVENT_UNIQUE_CONSTRAINT) = true from hmv]
            rfl
          rw [this]
          exact hmarked d₂ ⟨event, hev, markerViolation_constraint hc hmv⟩
        · exact hthrow _ d₂ (by simpa using hmv)
      · cases he
    · split at hok
      · cases hok
      · next hnone =>
        cases hok
        refine (applyEffect_deliveryPlain config uuid event).wp hthrow hfault
          (fun k d' ws hws _ => hG k d' ws hws) fun t _ hy d₃ hd₃ =>
          ⟨fun e he => hthrow e d₃ (hfault e he), ?_⟩
        rw [hL] at hy hd₃
        exact hdelivered d₃ t.1 (delivered_of_yields hev hnone hy hd₃)

/-! ## All deliveries -/

def deliverySpec (config : Config) (i : Nat) (op : Op) : Spec Db Write Key Error Result where
  guar := fun viaTx _ d ws =>
    match op with
    | .handleWebhook delivery =>
      if viaTx then Delivered config i delivery d ws else OutsideWrites ws
    | _ => viaTx = false ∧ ∃ ms, ws = [.tick ms]
  err := fun commits _ _ => commits = []
  post := fun commits result d =>
    match op, result with
    | .handleWebhook delivery, .alreadyProcessed true => commits = [] ∧ Marked delivery d
    | .handleWebhook _, .alreadyProcessed false => ∃ ws, commits = [ws]
    | _, _ => True

def deliveries : Assume Db Write Key Op :=
  ⟨deliveryRuns, MarkerRely,
    fun d d' => ∀ m ∈ d.processedWebhookEvents.rows, m ∈ d'.processedWebhookEvents.rows⟩

section

variable {config : Config} {i : Nat} {delivery : Option StripeEvent} {d : Db} {ws : List Write}

theorem Delivered.markers (h : Delivered config i delivery d ws) : ∃ m es,
    ws = .insertProcessedWebhookEvent m :: es ∧
    (store.applyAll d ws).processedWebhookEvents.rows = d.processedWebhookEvents.rows ++ [m] ∧
    ∀ x ∈ d.processedWebhookEvents.rows, x.providerEventId ≠ m.providerEventId := by
  obtain ⟨event, es, -, rfl, hm, hes, -⟩ := h
  have hnone := markerViolation_none.1 hm
  refine ⟨marker i event, es, rfl, ?_, fun x hx => (hnone x hx).2⟩
  rw [Store.applyAll_cons, noMarker_markers fun w hw => (hes w hw).noMarker]
  exact Table.insert_rows (Table.get?_eq_none.2 fun x hx => (hnone x hx).1)

theorem OutsideWrites.markers (h : OutsideWrites ws) :
    (store.applyAll d ws).processedWebhookEvents = d.processedWebhookEvents := by
  obtain ⟨w, rfl, hw⟩ := h
  exact noMarker_markers (by simpa using hw.noMarker) d

theorem Delivered.rely (h : Delivered config i delivery d ws) {ks : List Key}
    (hk : ∀ k ∈ ks, k ∉ store.locks ws) : MarkerRely ks d (store.applyAll d ws) := by
  obtain ⟨m, es, rfl, hrows, -⟩ := h.markers
  constructor
  · intro x hx
    rw [hrows]
    exact List.mem_append_left _ hx
  · intro x hx hkey
    rw [hrows, List.mem_append, List.mem_singleton] at hx
    rcases hx with hx | rfl
    · exact hx
    · rcases hkey with hkey | hkey
      · exact absurd (by simp [Store.locks, store, Write.keys]) (hk _ hkey)
      · exact absurd (by simp [Store.locks, store, Write.keys]) (hk _ hkey)

end

theorem delivery_group_rely {config : Config} {i : Nat} {op : Op} {b : Bool} {d : Db}
    {held : List Key} {ws : List Write} (h : (deliverySpec config i op).guar b held d ws) {ks : List Key}
    (hk : ∀ k ∈ ks, k ∉ store.locks ws) : MarkerRely ks d (store.applyAll d ws) := by
  cases op with
  | handleWebhook delivery =>
    cases b with
    | true => exact Delivered.rely h hk
    | false => exact .of_eq (OutsideWrites.markers h)
  | _ =>
    obtain ⟨-, ms, rfl⟩ := h
    exact .of_eq rfl

theorem deliveries_sound (config : Config) :
    Sound (system config) deliveries (fun _ => True) (deliverySpec config) where
  refl := .of_eq rfl
  trans := .trans
  weaken := fun hr => MarkerRely.mono (h := []) hr
  settled := fun hr => hr.kept
  post := by
    intro i op c r d d' h hs
    cases op with
    | handleWebhook delivery =>
      cases r with
      | alreadyProcessed b =>
        cases b with
        | true =>
          obtain ⟨hc, event, hev, m, hm, hme⟩ := h
          exact ⟨hc, event, hev, m, hs m hm, hme⟩
        | false => exact h
      | _ => trivial
    | _ => trivial
  err := fun h _ => h
  step := fun _ h => ⟨trivial, ((delivery_group_rely h (by simp) : MarkerRely [] _ _)).kept,
    fun _ ks hk _ => delivery_group_rely h hk⟩
  prog := by
    intro i op d _ hop
    cases op with
    | clock ms =>
      show wp store _ _ _ (write _ >>= _) _ _ d
      rw [wp_bind]
      intro d' _
      exact ⟨fun _ _ => rfl, fun _ => ⟨fun _ => ⟨rfl, ms, rfl⟩, rfl, trivial⟩⟩
    | handleWebhook delivery =>
      show wp store _ _ _ (handleWebhook config i delivery >>= _) _ _ d
      rw [wp_bind]
      exact handleWebhook_wp rfl (fun e he => isFault_not_unique he _) (fun _ _ _ h => h)
        (fun _ _ => rfl) (fun d' h => ⟨rfl, rfl, h⟩) fun d' ws h => ⟨h, rfl, ws, rfl⟩
    | _ => cases hop

/-! ## Runs -/

/-- The event whose marker a group inserts. -/
def markedEvent (g : Txn.Group Write) : Option String :=
  match g.writes with
  | .insertProcessedWebhookEvent m :: _ => some m.providerEventId
  | _ => none

/-- The events whose handling was committed, in commit order. -/
def committedEvents (log : List (Txn.Group Write)) : List String := log.filterMap markedEvent

/-- The events that have a marker. -/
def Db.markedEvents (d : Db) : List String := d.processedWebhookEvents.rows.map (·.providerEventId)

structure ExactlyOnce (config : Config) (d₀ : Db) (s : RunState) : Prop where
  /-- What a transaction commits is its event's marker and all of its effect. -/
  commits : ∀ l g r, s.log = l ++ g :: r → g.viaTx = true → ∃ delivery,
    s.ops[g.call]? = some (.handleWebhook delivery) ∧
    Delivered config g.call delivery (replay store d₀ l) g.writes
  /-- What deliveries write outside of their transaction touches none of its tables. -/
  outside : ∀ g ∈ s.log, g.viaTx = false → OutsideWrites g.writes ∨ ∃ ms, g.writes = [.tick ms]
  once : (committedEvents s.log).Nodup ∧ ∀ e ∈ committedEvents s.log, e ∉ d₀.markedEvents
  duplicate : ∀ i delivery, s.ops[i]? = some (.handleWebhook delivery) →
    answer s i = some (.alreadyProcessed true) →
    (∀ g ∈ s.log, g.call = i → g.viaTx = false) ∧
    ∃ event, StripePaymentProvider.verifyAndParseWebhook delivery = .ok event ∧
      (event.providerEventId ∈ committedEvents s.log ∨ event.providerEventId ∈ d₀.markedEvents)
  processed : ∀ i delivery, s.ops[i]? = some (.handleWebhook delivery) →
    answer s i = some (.alreadyProcessed false) → ∃ g ∈ s.log, g.call = i ∧ g.viaTx = true
  throws : ∀ i delivery e, s.ops[i]? = some (.handleWebhook delivery) →
    s.call i = .done (.error e) → ∀ g ∈ s.log, g.call = i → g.viaTx = false
  /-- Any error but the violation of the markers' constraint is thrown again. -/
  rethrown : ∀ i tx e, s.call i = .run (some tx) (.throw e) → e.isMarkerViolation = false →
    tx.onError e = .throw e

section

variable {config : Config} {d₀ : Db} {s : RunState}

/-- What a group adds to the markers. -/
theorem delivery_group_markers {i : Nat} {op : Op} {d : Db} {g : Txn.Group Write}
    {held : List Key} (h : (deliverySpec config i op).guar g.viaTx held d g.writes) :
    (store.applyAll d g.writes).markedEvents = d.markedEvents ++ committedEvents [g] ∧
    (committedEvents [g]).Nodup ∧ ∀ e ∈ committedEvents [g], e ∉ d.markedEvents := by
  obtain ⟨j, b, ws⟩ := g
  cases op with
  | handleWebhook delivery =>
    cases b with
    | true =>
      obtain ⟨m, es, rfl, hrows, hnew⟩ := Delivered.markers h
      have he : committedEvents [⟨j, true, .insertProcessedWebhookEvent m :: es⟩] =
        [m.providerEventId] := rfl
      rw [he]
      refine ⟨?_, List.nodup_singleton _, ?_⟩
      · simp only [Db.markedEvents, hrows, List.map_append, List.map_cons, List.map_nil]
      · simpa [Db.markedEvents] using hnew
    | false =>
      have hm := OutsideWrites.markers (d := d) h
      obtain ⟨w, rfl, hw⟩ := h
      have he : committedEvents [⟨j, false, [w]⟩] = [] := by
        cases w <;> first | rfl | exact hw.elim
      rw [he, Db.markedEvents, hm]
      simp [Db.markedEvents]
  | _ =>
    obtain ⟨-, ms, rfl⟩ := h
    have he : committedEvents [⟨j, b, [.tick ms]⟩] = [] := rfl
    rw [he, List.append_nil]
    exact ⟨rfl, List.nodup_nil, by simp⟩

/-- The markers are those of the start and of the committed events, once each. -/
theorem committedEvents_markers (hs : (system config).Reach deliveryRuns d₀ s)
    {l r : List (Txn.Group Write)} (hlog : s.log = l ++ r) :
    (replay store d₀ l).markedEvents = d₀.markedEvents ++ committedEvents l ∧
    (committedEvents l).Nodup ∧ ∀ e ∈ committedEvents l, e ∉ d₀.markedEvents := by
  induction l using List.reverseRecOn generalizing r with
  | nil => simp [committedEvents]
  | append_singleton l g ih =>
    have hlog' : s.log = l ++ g :: r := by simp [hlog]
    obtain ⟨hm, hnodup, hnew⟩ := ih hlog'
    obtain ⟨op, -, -, _, hg⟩ := ((deliveries_sound config).good trivial hs).log hlog'
    obtain ⟨hgm, hgnodup, hgnew⟩ := delivery_group_markers (d := replay store d₀ l) hg
    have happ : committedEvents (l ++ [g]) = committedEvents l ++ committedEvents [g] :=
      List.filterMap_append
    rw [replay_snoc, hgm, hm, happ, List.append_assoc]
    rw [hm] at hgnew
    refine ⟨rfl, List.nodup_append.2 ⟨hnodup, hgnodup, ?_⟩, ?_⟩
    · rintro e he e' he' rfl
      exact hgnew e he' (List.mem_append_right _ he)
    · intro e he
      rcases List.mem_append.1 he with he | he
      · exact hnew e he
      · exact fun h => hgnew e he (List.mem_append_left _ h)

/-- A call with no commit has no group that a transaction committed. -/
theorem viaTx_of_commits {i : Nat} {log : List (Txn.Group Write)} (h : commitsOf i log = []) :
    ∀ g ∈ log, g.call = i → g.viaTx = false := by
  intro g hg hgi
  rw [Bool.eq_false_iff]
  intro hb
  have : g.writes ∈ commitsOf i log :=
    List.mem_map_of_mem (List.mem_filter.2 ⟨hg, by simp [hgi, hb]⟩)
  rw [h] at this
  cases this

theorem delivery_handlers (config : Config) (i : Nat) (op : Op) (hop : op.isDeliveryOrClock = true) :
    (program config i op).Handlers fun h => ∀ e, e.isMarkerViolation = false → h e = .throw e := by
  cases op with
  | clock ms => exact fun _ => trivial
  | handleWebhook delivery =>
    show (handleWebhook config i delivery >>= fun b => pure (Result.alreadyProcessed b)).Handlers _
    unfold handleWebhook
    cases StripePaymentProvider.verifyAndParseWebhook delivery with
    | error e => trivial
    | ok event =>
      have hmarker : (insertMarker (marker i event)).Plain (fun _ => True) (fun _ => True)
          fun _ => True := plain_insertUnique trivial trivial fun _ _ _ => trivial
      refine ⟨fun e he => ?_, fun e => ?_, ?_⟩
      · show Prog.bind (onError e) _ = _
        rw [onError_rethrows he]
        rfl
      · show (Prog.bind (onError e) _).Handlers _
        unfold onError
        split <;> trivial
      · show (((insertMarker _ >>= fun _ => applyEffect config i event) >>= _) >>= _).Handlers _
        rw [Prog.bind_assoc, Prog.bind_assoc]
        exact hmarker.handlers fun _ =>
          (applyEffect_deliveryPlain config i event).handlers fun _ => trivial
  | _ => cases hop

end

/-- Deliveries, interleaved and failing at any statement, are exactly once. -/
theorem deliveries_exactly_once (config : Config) (d₀ : Db) (s : RunState)
    (hs : (system config).Reach deliveryRuns d₀ s) : ExactlyOnce config d₀ s := by
  have hgood := (deliveries_sound config).good trivial hs
  have hmarkers := committedEvents_markers hs (l := s.log) (r := []) (by simp)
  have hdb : s.db.markedEvents = d₀.markedEvents ++ committedEvents s.log := by
    rw [hgood.replay]
    exact hmarkers.1
  refine ⟨?_, ?_, hmarkers.2, ?_, ?_, ?_, ?_⟩
  · intro l g r hlog hb
    obtain ⟨op, hop, -, _, hg⟩ := hgood.log hlog
    cases op with
    | handleWebhook delivery =>
      rw [hb] at hg
      exact ⟨delivery, hop, hg⟩
    | _ => exact absurd (hb.symm.trans hg.1) (by simp)
  · intro g hg hb
    obtain ⟨l, r, hlog⟩ := List.append_of_mem hg
    obtain ⟨op, -, -, _, hg⟩ := hgood.log hlog
    cases op with
    | handleWebhook delivery =>
      rw [hb] at hg
      exact .inl hg
    | _ => exact .inr hg.2
  · intro i delivery hop hans
    have hcall := hgood.call hop
    unfold answer at hans
    split at hans
    · next r hr =>
      cases hans
      rw [hr] at hcall
      obtain ⟨hc, event, hev, m, hm, hme⟩ := hcall
      refine ⟨viaTx_of_commits hc, event, hev, ?_⟩
      have hmem : event.providerEventId ∈ s.db.markedEvents := hme ▸ List.mem_map_of_mem hm
      rw [hdb, List.mem_append] at hmem
      exact hmem.symm
    · cases hans
  · intro i delivery hop hans
    have hcall := hgood.call hop
    unfold answer at hans
    split at hans
    · next r hr =>
      cases hans
      rw [hr] at hcall
      obtain ⟨ws, hws⟩ := hcall
      have hmem : ws ∈ commitsOf i s.log := by rw [hws]; exact List.mem_singleton_self ws
      obtain ⟨g, hg, -⟩ := List.mem_map.1 hmem
      have := List.mem_filter.1 hg
      simp only [Bool.and_eq_true, beq_iff_eq] at this
      exact ⟨g, this.1, this.2⟩
    · cases hans
  · intro i delivery e hop he
    have hcall := hgood.call hop
    rw [he] at hcall
    exact viaTx_of_commits hcall
  · intro i tx e hcall he
    have hh := System.Reach.handled (fun i op _ hop => delivery_handlers config i op hop) hs i
    rw [hcall] at hh
    exact hh.1 e he

/-- The renewal invoice of the subscription of `paidCompany`. -/
def renewalEvent : StripeEvent where
  id := "evt_1"
  type := "invoice.paid"
  object :=
    { id := "in_1"
      metadataCompanyId := none
      metadataPlan := none
      subscription := none
      billingReason := some "subscription_cycle"
      parentSubscription := some "sub_1"
      amountPaid := 118800
      status := "paid" }

/-- Two concurrent deliveries of one event: the second waits for the first and
then finds it processed. -/
theorem deliveries_exactly_once_twice : ∃ s : RunState,
    answer s 0 = some (.alreadyProcessed false) ∧ answer s 1 = some (.alreadyProcessed true) ∧
    committedEvents s.log = ["evt_1"] ∧ ExactlyOnce .default paidCompany s := by
  have hrun : ((system .default).runLabels deliveryRuns (State.init paidCompany)
      ([.spawn (.handleWebhook (some renewalEvent)), .spawn (.handleWebhook (some renewalEvent)),
        .step 1] ++ List.replicate 17 (.step 0) ++ List.replicate 3 (.step 1))).map
      (fun s => (answer s 0, answer s 1, committedEvents s.log)) =
      some (some (.alreadyProcessed false), some (.alreadyProcessed true), ["evt_1"]) := by
    decide
  obtain ⟨s, hs, hst⟩ := System.reach_of_run hrun
  simp only [Prod.mk.injEq] at hst
  exact ⟨s, hst.1, hst.2.1, hst.2.2, deliveries_exactly_once .default paidCompany s hs⟩

end JobBoard
