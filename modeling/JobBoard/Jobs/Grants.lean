import JobBoard.Jobs.Conduct
import JobBoard.Lib.Simulation

/-!
# Entitlements as a machine

`Entitled` is what decides on the features of the companies, without tables and statements:
the company of a user, the plan of a company and whether it is active, and the features forced on
or off. `Serves` are its steps. Runs of calls that do not overlap are explained by it
(`entitlements_explained`).
-/

set_option autoImplicit false

namespace JobBoard.Jobs

open Txn Prog

/-! ## The machine -/

structure Entitled where
  company : Id → Option Id
  plan : Id → Option SubscriptionPlan
  active : Id → Bool
  forced : Id → Feature → Option Bool

namespace Entitled

def grants (a : Entitled) (companyId : Id) (f : Feature) : FeatureState :=
  match a.forced companyId f with
  | some enabled => ⟨enabled, .adminOverride⟩
  | none =>
    ⟨a.active companyId &&
      (a.plan companyId).any fun plan => decide (f ∈ (entitlementsForPlan plan).features),
      .package⟩

def force (a : Entitled) (companyId : Id) (f : Feature) (enabled : Option Bool) : Entitled :=
  { a with
    forced := fun c g => if c = companyId ∧ g = f then enabled else a.forced c g }

end Entitled

/-- A statement failed. A new id may be taken. -/
def Fails (e : Error) : Prop :=
  isFault e = true ∨
    e = .http (.queryFailed POSTGRES_UNIQUE_VIOLATION (some "PK_feature_overrides"))

/-- The calls of the candidates, and the removal of a profile. -/
def Op.ofCandidate : Op → Bool
  | .mine _ | .eligibility _ | .detail _ | .apply .. | .removeProfile _ => true
  | _ => false

/-- The steps of the machine and their answers. When the audit log cannot be written the
override has been set or cleared already. -/
inductive Serves : Op → Entitled → Entitled → Except Error Result → Prop
  | elsewhere {w : Cvtheque.Write} {a a' : Entitled} {r : Except Error Result} :
    a'.forced = a.forced → Serves (.elsewhere w) a a' r
  | removed {id : Id} {a a' : Entitled} {r : Except Error Result} :
    a'.forced = a.forced → Serves (.removeRecruiter id) a a' r
  | set {actorId companyId : Id} {f : Feature}
      {dto : EntitlementsAdminController.SetFeatureOverrideDto} {a : Entitled}
      {saved : FeatureOverride} :
    saved.companyId = companyId → saved.feature = f → saved.enabled = dto.enabled →
      Serves (.setOverride actorId companyId f.toString dto) a
        (a.force companyId f (some dto.enabled)) (.ok (.override saved))
  | setFailed {actorId companyId : Id} {f : Feature}
      {dto : EntitlementsAdminController.SetFeatureOverrideDto} {a a' : Entitled} {e : Error} :
    Fails e → a' = a ∨ a' = a.force companyId f (some dto.enabled) →
      Serves (.setOverride actorId companyId f.toString dto) a a' (.error e)
  | setUnknown {actorId companyId : Id} {feature : String}
      {dto : EntitlementsAdminController.SetFeatureOverrideDto} {a : Entitled} :
    Feature.ofString? feature = none →
      Serves (.setOverride actorId companyId feature dto) a a
        (.error (.http (.badRequest ("Unknown feature: " ++ feature))))
  | cleared {actorId companyId : Id} {f : Feature} {a : Entitled} {enabled : Bool} :
    a.forced companyId f = some enabled →
      Serves (.clearOverride actorId companyId f.toString) a (a.force companyId f none)
        (.ok .unit)
  | missing {actorId companyId : Id} {f : Feature} {a : Entitled} :
    a.forced companyId f = none →
      Serves (.clearOverride actorId companyId f.toString) a a
        (.error (.http (.notFound "No such override")))
  | clearFailed {actorId companyId : Id} {f : Feature} {a a' : Entitled} {e : Error} :
    isFault e = true → a' = a ∨ a' = a.force companyId f none →
      Serves (.clearOverride actorId companyId f.toString) a a' (.error e)
  | clearUnknown {actorId companyId : Id} {feature : String} {a : Entitled} :
    Feature.ofString? feature = none →
      Serves (.clearOverride actorId companyId feature) a a
        (.error (.http (.badRequest ("Unknown feature: " ++ feature))))
  | told {userId companyId : Id} {a : Entitled} {e : CompanyEntitlements} :
    a.company userId = some companyId → e.companyId = companyId → e.plan = a.plan companyId →
      e.active = a.active companyId → e.features = a.grants companyId →
        Serves (.entitlements userId) a a (.ok (.entitlements e))
  | nobody {userId : Id} {a : Entitled} :
    a.company userId = none → Serves (.entitlements userId) a a
      (.error (.http (.forbidden "No company associated with this account")))
  | tellFailed {userId : Id} {a : Entitled} {e : Error} :
    isFault e = true → Serves (.entitlements userId) a a (.error e)
  | outsider {op : Op} {userId : Id} {a : Entitled} :
    op.recruiter? = some userId → a.company userId = none →
      Serves op a a (.error (.http (.forbidden "No company associated with this account")))
  | refused {op : Op} {userId companyId : Id} {a : Entitled} :
    op.recruiter? = some userId → a.company userId = some companyId →
      (a.grants companyId .jobs).enabled = false →
        Serves op a a (.error (.featureNotAvailable .jobs))
  | failed {op : Op} {userId : Id} {a : Entitled} {e : Error} :
    op.recruiter? = some userId → isFault e = true → Serves op a a (.error e)
  | admitted {op : Op} {userId companyId : Id} {a : Entitled} {r : Except Error Result} :
    op.recruiter? = some userId → a.company userId = some companyId →
      (a.grants companyId .jobs).enabled = true → (∀ f, r ≠ .error (.featureNotAvailable f)) →
        Serves op a a r
  | candidate {op : Op} {a : Entitled} {r : Except Error Result} :
    op.ofCandidate = true → Serves op a a r

/-! ## The tables -/

/-- No company has two overrides of a feature. -/
def OnePerFeature (d : Db) : Prop :=
  ∀ o ∈ d.overrides.rows, ∀ o' ∈ d.overrides.rows,
    o.companyId = o'.companyId → o.feature = o'.feature → o = o'

/-- What the tables say. -/
def Db.entitled (config : Config) (d : Db) : Entitled where
  company userId := (d.base.recruiterOf userId).map (·.companyId)
  plan companyId := (d.subscriptionOf companyId).map (·.plan)
  active companyId := (d.subscriptionOf companyId).any fun s =>
    isSubscriptionWithinAccess s config.gracePeriodDays d.base.now
  forced companyId f := (d.override? companyId f).map (·.enabled)

/-- The state of the machine for a database. -/
structure Entitles (config : Config) (d : Db) (a : Entitled) : Prop where
  one : OnePerFeature d
  eq : d.entitled config = a

section

variable {config : Config} {d : Db} {companyId : Id} {f : Feature}

theorem entitled_company (userId : Id) :
    (d.entitled config).company userId = (d.base.recruiterOf userId).map (·.companyId) := rfl

theorem override?_some {o : FeatureOverride} (h : d.override? companyId f = some o) :
    o ∈ d.overrides.rows ∧ o.companyId = companyId ∧ o.feature = f := by
  have hfound := List.find?_some h
  simp only [Bool.and_eq_true, decide_eq_true_eq] at hfound
  exact ⟨List.mem_of_find?_eq_some h, hfound⟩

theorem override?_none : d.override? companyId f = none ↔
    ∀ o ∈ d.overrides.rows, ¬ (o.companyId = companyId ∧ o.feature = f) := by
  simp [Db.override?, List.find?_eq_none]

theorem override?_of_mem (h : OnePerFeature d) {o : FeatureOverride}
    (ho : o ∈ d.overrides.rows) : d.override? o.companyId o.feature = some o := by
  cases hfind : d.override? o.companyId o.feature with
  | none => exact absurd ⟨rfl, rfl⟩ (override?_none.1 hfind o ho)
  | some o' =>
    obtain ⟨ho', hcompany, hfeature⟩ := override?_some hfind
    rw [h o' ho' o ho hcompany hfeature]

/-- With one override of a feature, it does not matter which one counts. -/
theorem featureState_grants (h : OnePerFeature d) (plan : Option SubscriptionPlan) (active : Bool) :
    EntitlementService.featureState active plan
        (d.overrides.rows.filter (·.companyId = companyId)) f =
      match (d.override? companyId f).map (·.enabled) with
      | some enabled => ⟨enabled, .adminOverride⟩
      | none =>
        ⟨active && (plan.any fun plan => decide (f ∈ (entitlementsForPlan plan).features)),
          .package⟩ := by
  unfold EntitlementService.featureState
  cases hlast : (d.overrides.rows.filter (·.companyId = companyId)).reverse.find?
      fun o => o.feature = f with
  | none =>
    have hnone : d.override? companyId f = none := by
      refine override?_none.2 fun o ho hmatch => ?_
      have hfree := List.find?_eq_none.1 hlast o (by simp [ho, hmatch.1])
      simp [hmatch.2] at hfree
    rw [hnone]
    rfl
  | some o =>
    have hmem := List.mem_of_find?_eq_some hlast
    simp only [List.mem_reverse, List.mem_filter, decide_eq_true_eq] at hmem
    have hfeature : o.feature = f := by simpa using List.find?_some hlast
    have hsome := override?_of_mem h hmem.1
    rw [hmem.2, hfeature] at hsome
    rw [hsome]
    rfl

end

/-! ## Writes -/

/-- The writes to offers and applications, and the audit log. -/
def Write.neutral : Write → Bool
  | .removeProfile _ | .insertOffer _ | .saveOffer .. | .insertApplication _ | .saveApplication ..
  | .insertAuditLog _ => true
  | _ => false

section

variable {config : Config} {d : Db} {a : Entitled} {o : FeatureOverride}

theorem Entitles.neutral (h : Entitles config d a) {w : Write} (hw : w.neutral = true) :
    Entitles config (store.apply d w) a := by
  obtain ⟨hone, rfl⟩ := h
  cases w <;> first | exact ⟨hone, rfl⟩ | cases hw

/-- The overrides after a write that leaves those of other features alone. -/
theorem Entitles.force {d' : Db} (h : Entitles config d a) {companyId : Id} {f : Feature}
    {enabled : Option Bool} (hbase : d'.base = d.base) (hone : OnePerFeature d')
    (hself : (d'.override? companyId f).map (·.enabled) = enabled)
    (hother : ∀ c g, ¬ (c = companyId ∧ g = f) → (d'.override? c g).map (·.enabled) =
      (d.override? c g).map (·.enabled)) :
    Entitles config d' (a.force companyId f enabled) := by
  obtain ⟨-, rfl⟩ := h
  refine ⟨hone, ?_⟩
  have hforced : (fun c g => (d'.override? c g).map (·.enabled)) = fun c g =>
      if c = companyId ∧ g = f then enabled else (d.override? c g).map (·.enabled) := by
    funext c g
    split
    · next hcg => rw [hcg.1, hcg.2, hself]
    · next hcg => exact hother c g hcg
  unfold Db.entitled Entitled.force Db.subscriptionOf
  rw [hbase, hforced]

theorem Entitles.insert (h : Entitles config d a)
    (hnone : OverrideRepository.violation d o = none) :
    Entitles config (store.apply d (.insertOverride o))
      (a.force o.companyId o.feature (some o.enabled)) := by
  unfold OverrideRepository.violation at hnone
  split at hnone
  · cases hnone
  · next hid =>
    split at hnone
    · cases hnone
    · next hfree =>
      have hid : d.overrides.get? o.id = none := by simpa using hid
      have hfree : d.override? o.companyId o.feature = none := by simpa using hfree
      have hrows : (store.apply d (.insertOverride o)).overrides.rows = d.overrides.rows ++ [o] :=
        Table.insert_rows hid
      have hother := override?_none.1 hfree
      refine h.force rfl ?_ ?_ fun c g hcg => ?_
      · intro x hx y hy hcompany hfeature
        rw [hrows, List.mem_append, List.mem_singleton] at hx hy
        rcases hx with hx | rfl <;> rcases hy with hy | rfl
        · exact h.one x hx y hy hcompany hfeature
        · exact absurd ⟨hcompany, hfeature⟩ (hother x hx)
        · exact absurd ⟨hcompany.symm, hfeature.symm⟩ (hother y hy)
        · rfl
      · unfold Db.override? at hfree ⊢
        rw [hrows, List.find?_append, hfree]
        simp
      · unfold Db.override?
        rw [hrows, List.find?_append]
        have hmatch : ¬ (o.companyId = c ∧ o.feature = g) := fun heq => hcg ⟨heq.1.symm, heq.2.symm⟩
        have hnot : (o.companyId = c && o.feature = g : Bool) = false := by simpa using hmatch
        simp [hnot]

/-- A table with fewer rows has the same override of a feature that it keeps. -/
theorem override?_congr {d' : Db} {companyId : Id} {f : Feature} (hone' : OnePerFeature d')
    (h : ∀ o : FeatureOverride, o.companyId = companyId → o.feature = f →
      (o ∈ d'.overrides.rows ↔ o ∈ d.overrides.rows)) :
    d'.override? companyId f = d.override? companyId f := by
  cases hfind : d.override? companyId f with
  | none =>
    refine override?_none.2 fun o ho hmatch => ?_
    exact override?_none.1 hfind o ((h o hmatch.1 hmatch.2).1 ho) hmatch
  | some o =>
    obtain ⟨ho, rfl, rfl⟩ := override?_some hfind
    exact override?_of_mem hone' ((h o rfl rfl).2 ho)

theorem Entitles.save {reread : FeatureOverride} (h : Entitles config d a)
    (hget : d.overrides.get? o.id = some reread) (hcompany : reread.companyId = o.companyId)
    (hfeature : reread.feature = o.feature) :
    Entitles config (store.apply d (.saveOverride o reread))
      (a.force o.companyId o.feature (some o.enabled)) := by
  have hmem := Table.mem_of_get? hget
  have hfind : ∀ c g, (store.apply d (.saveOverride o reread)).override? c g =
      (d.override? c g).map fun r => if r.id = o.id then o.overwrite reread r else r :=
    fun c g => Table.find?_modify (o.overwrite reread) (fun _ => rfl) fun _ => rfl
  refine h.force rfl ?_ ?_ fun c g hcg => ?_
  · intro x hx y hy hxy hxy'
    obtain ⟨x₀, hx₀, rfl⟩ := List.mem_map.1 hx
    obtain ⟨y₀, hy₀, rfl⟩ := List.mem_map.1 hy
    have hkeeps : ∀ r : FeatureOverride, (if decide (r.id = o.id) = true then o.overwrite reread r
        else r).companyId = r.companyId ∧ (if decide (r.id = o.id) = true then
          o.overwrite reread r else r).feature = r.feature := by
      intro r
      split <;> exact ⟨rfl, rfl⟩
    rw [(hkeeps x₀).1, (hkeeps y₀).1] at hxy
    rw [(hkeeps x₀).2, (hkeeps y₀).2] at hxy'
    rw [h.one x₀ hx₀ y₀ hy₀ hxy hxy']
  · have hsome := override?_of_mem h.one hmem
    rw [hcompany, hfeature] at hsome
    rw [hfind, hsome, Option.map_some, if_pos (Table.key_of_get? hget)]
    simp [FeatureOverride.overwrite, setColumn_reread]
  · rw [hfind]
    cases hc : d.override? c g with
    | none => rfl
    | some r =>
      obtain ⟨hr, rfl, rfl⟩ := override?_some hc
      have hid : r.id ≠ o.id := by
        intro heq
        have hsame := Table.eq_of_key hr hmem (heq.trans (Table.key_of_get? hget).symm)
        exact hcg ⟨hsame ▸ hcompany, hsame ▸ hfeature⟩
      rw [Option.map_some, if_neg hid]

theorem Entitles.remove (h : Entitles config d a) (ho : o ∈ d.overrides.rows) :
    Entitles config (store.apply d (.removeOverride o.id))
      (a.force o.companyId o.feature none) := by
  have hrows : ∀ x, x ∈ (store.apply d (.removeOverride o.id)).overrides.rows ↔
      x ∈ d.overrides.rows ∧ x.id ≠ o.id := by
    intro x
    show x ∈ d.overrides.rows.filter _ ↔ _
    simp
  have hone : OnePerFeature (store.apply d (.removeOverride o.id)) := fun x hx y hy =>
    h.one x ((hrows x).1 hx).1 y ((hrows y).1 hy).1
  refine h.force rfl hone ?_ fun c g hcg => ?_
  · have hnone : (store.apply d (.removeOverride o.id)).override? o.companyId o.feature = none := by
      refine override?_none.2 fun x hx hmatch => ?_
      obtain ⟨hx, hne⟩ := (hrows x).1 hx
      exact hne (congrArg (·.id) (h.one x hx o ho hmatch.1 hmatch.2))
    rw [hnone]
    rfl
  · rw [override?_congr hone fun x hc hg => ?_]
    rw [hrows]
    refine ⟨fun hx => hx.1, fun hx => ⟨hx, fun hid => hcg ?_⟩⟩
    obtain rfl := Table.eq_of_key hx ho hid
    exact ⟨hc.symm, hg.symm⟩

end

/-! ## Reads -/

/-- The runs in which a call starts when the ones before it have ended. -/
def oneAtATime : Runs Db Write Op := { Runs.all with serial := true }

section

variable {config : Config} {d : Db} {adm : Db → List Write → Prop}
  {J : Published Write → Db → Prop} {E : Published Write → Db → Error → Prop}
  {gs : Published Write}

abbrev Reads {α : Type} (adm : Db → List Write → Prop) (J : Published Write → Db → Prop)
    (E : Published Write → Db → Error → Prop) (p : M α)
    (Q : Opened Db Write Error → Published Write → Db → α → Prop) (gs : Published Write) (d : Db) :
    Prop :=
  p.alone store (fun e => isFault e = true) adm J E Q none gs d

theorem reads_bind {α β : Type} {p : M α} {f : α → M β}
    {Q : Opened Db Write Error → Published Write → Db → β → Prop}
    (h : Reads adm J E p (fun tx gs d x =>
      (f x).alone store (fun e => isFault e = true) adm J E Q tx gs d) gs d) :
    Reads adm J E (p >>= f) Q gs d := by
  unfold Reads
  rw [alone_bind]
  exact h

theorem resolveCompanyId_reads {userId : Id}
    {Q : Opened Db Write Error → Published Write → Db → Id → Prop}
    (hfault : ∀ e, isFault e = true → E gs d e)
    (hnone : (d.entitled config).company userId = none →
      E gs d (.http (.forbidden "No company associated with this account")))
    (hsome : ∀ companyId, (d.entitled config).company userId = some companyId →
      Q none gs d companyId) :
    Reads adm J E (EntitlementService.resolveCompanyId userId) Q gs d := by
  unfold EntitlementService.resolveCompanyId
  refine alone_select_bind hfault ?_
  cases hfind : d.base.recruiterOf userId with
  | none => exact hnone (by rw [entitled_company, hfind]; rfl)
  | some r => exact hsome r.companyId (by rw [entitled_company, hfind]; rfl)

/-- The entitlements are those of the machine. -/
theorem getEntitlementsForUser_reads {userId : Id}
    {Q : Opened Db Write Error → Published Write → Db → CompanyEntitlements → Prop}
    (hone : OnePerFeature d) (hfault : ∀ e, isFault e = true → E gs d e)
    (hnone : (d.entitled config).company userId = none →
      E gs d (.http (.forbidden "No company associated with this account")))
    (hsome : ∀ companyId e, (d.entitled config).company userId = some companyId →
      e.companyId = companyId → e.plan = (d.entitled config).plan companyId →
        e.active = (d.entitled config).active companyId →
          e.features = (d.entitled config).grants companyId → Q none gs d e) :
    Reads adm J E (EntitlementService.getEntitlementsForUser config userId) Q gs d := by
  unfold EntitlementService.getEntitlementsForUser
  refine reads_bind (resolveCompanyId_reads hfault hnone fun companyId hcompany => ?_)
  unfold EntitlementService.getEntitlementsForCompany
  refine alone_select_bind hfault (alone_select_bind hfault (alone_select_bind hfault ?_))
  refine hsome companyId _ hcompany rfl rfl rfl ?_
  funext f
  exact featureState_grants hone _ _

theorem canActivate_reads {userId : Id} {f : Feature}
    {Q : Opened Db Write Error → Published Write → Db → Unit → Prop}
    (hone : OnePerFeature d) (hfault : ∀ e, isFault e = true → E gs d e)
    (hnone : (d.entitled config).company userId = none →
      E gs d (.http (.forbidden "No company associated with this account")))
    (hrefused : ∀ companyId, (d.entitled config).company userId = some companyId →
      ((d.entitled config).grants companyId f).enabled = false → E gs d (.featureNotAvailable f))
    (hallowed : ∀ companyId, (d.entitled config).company userId = some companyId →
      ((d.entitled config).grants companyId f).enabled = true → Q none gs d ()) :
    Reads adm J E (FeatureGuard.canActivate config f userId) Q gs d := by
  unfold FeatureGuard.canActivate EntitlementService.hasFeatureForUser
  refine reads_bind (reads_bind (getEntitlementsForUser_reads hone hfault hnone ?_))
  intro companyId e hcompany _ _ _ hfeatures
  show Reads adm J E (if ¬ (e.features f).enabled = true then Prog.throw (.featureNotAvailable f)
    else ret ()) Q gs d
  rw [hfeatures]
  split
  · next hrefuse => exact hrefused companyId hcompany (by simpa using hrefuse)
  · next hallow => exact hallowed companyId hcompany (by simpa using hallow)

end

/-! ## The methods of the recruiters -/

/-- The piece leaves the entitlements alone and is not refused for a feature. -/
abbrev Neutral {α : Type} (p : M α) : Prop :=
  p.Plain (fun ws => ws = [] ∨ ∃ w, ws = [w] ∧ w.neutral = true)
    (fun ws => ws = [] ∨ ∃ w, ws = [w] ∧ w.neutral = true) fun e => ∀ f, e ≠ .featureNotAvailable f

section

variable {id companyId userId uuid : Id}

theorem http_ne (e : JobBoard.Error) : ∀ f, Error.http e ≠ .featureNotAvailable f := by
  intro f h
  cases h

theorem neutral_insertRow {α : Type} {violated : Db → α → Option (String × String)} {row : Db → α}
    {insert : α → Write} (h : ∀ a, (insert a).neutral = true) :
    Neutral (insertRow violated row insert) := by
  refine plain_query (.inl rfl) (fun v r hr => ?_) fun v e he => ?_
  · split at hr
    · cases hr
    · cases hr
      exact .inr ⟨_, rfl, h _⟩
  · split at he
    · cases he
      exact http_ne _
    · cases he

theorem neutral_saveOffer (loaded entity : JobOffer) :
    Neutral (OfferRepository.save loaded entity) := by
  refine .bind (plain_select (.inl rfl) _) fun reread => ?_
  cases reread with
  | none => exact http_ne _
  | some reread =>
    dsimp only
    split
    · trivial
    · exact .bind (plain_write fun _ => .inr ⟨_, rfl, rfl⟩) fun _ => trivial

theorem neutral_saveApplication (loaded entity : JobApplication) :
    Neutral (ApplicationRepository.save loaded entity) := by
  refine .bind (plain_select (.inl rfl) _) fun reread => ?_
  cases reread with
  | none => exact http_ne _
  | some reread =>
    dsimp only
    split
    · trivial
    · exact .bind (plain_write fun _ => .inr ⟨_, rfl, rfl⟩) fun _ => trivial

theorem neutral_loadForCompany : Neutral (JobsService.loadForCompany id companyId) := by
  refine .bind (plain_select (.inl rfl) _) fun offer => ?_
  cases offer with
  | none => exact http_ne _
  | some offer => trivial

theorem neutral_update (dto : UpdateJobDto) : Neutral (JobsService.update companyId id dto) := by
  refine .bind neutral_loadForCompany fun offer => ?_
  split
  · exact http_ne _
  · exact neutral_saveOffer offer _
  · exact neutral_saveOffer offer _

theorem neutral_withCounts (offers : List JobOffer) : Neutral (JobsService.withCounts offers) := by
  unfold JobsService.withCounts
  split
  · trivial
  · exact .bind (plain_select (.inl rfl) _) fun _ => trivial

theorem neutral_counted (offer : JobOffer) : Neutral (JobsService.counted offer) := by
  refine .bind (neutral_withCounts _) fun os => ?_
  cases os with
  | nil => exact http_ne _
  | cons o os => trivial

theorem neutral_updateStatus (status : Analytics.ApplicationStatus) :
    Neutral (ApplicationsService.updateStatus id companyId status) := by
  refine .bind (plain_select (.inl rfl) _) fun app => ?_
  cases app with
  | none => exact http_ne _
  | some app => exact neutral_saveApplication app _

theorem neutral_listForOffer : Neutral (ApplicationsService.listForOffer id companyId) := by
  refine .bind (plain_select (.inl rfl) _) fun offer => ?_
  cases offer with
  | none => exact http_ne _
  | some offer => exact plain_select (.inl rfl) _

theorem neutral_apply (coverLetter : Option String) :
    Neutral (ApplicationsService.apply uuid userId id coverLetter) := by
  refine .bind (plain_select (.inl rfl) _) fun offer => ?_
  cases offer with
  | none => exact http_ne _
  | some offer =>
    refine .bind (.bind (plain_select (.inl rfl) _) fun profile =>
      .bind (plain_select (.inl rfl) _) fun n => plain_ret _) fun r => ?_
    split
    · intro f h
      cases h
    · split
      · exact http_ne _
      · refine .bind (plain_select (.inl rfl) _) fun found => ?_
        cases found with
        | some _ => exact http_ne _
        | none => exact neutral_insertRow fun _ => rfl

theorem neutral_removeProfile : Neutral (CandidateDataService.removeProfile userId) := by
  refine .bind (plain_select (.inl rfl) _) fun profile => ?_
  cases profile with
  | none => trivial
  | some profile => exact plain_write fun _ => .inr ⟨_, rfl, rfl⟩

end

/-! ## Overrides -/

section

variable {config : Config} {d : Db} {a : Entitled} {adm : Db → List Write → Prop}
  {E : Published Write → Db → Error → Prop} {gs : Published Write} {companyId : Id} {f : Feature}

theorem parseFeature_reads {feature : String}
    {Q : Opened Db Write Error → Published Write → Db → Feature → Prop}
    (hnone : Feature.ofString? feature = none →
      E gs d (.http (.badRequest ("Unknown feature: " ++ feature))))
    (hsome : ∀ f, f.toString = feature → Q none gs d f) :
    Reads adm (fun _ _ => True) E (EntitlementsAdminController.parseFeature feature) Q gs d := by
  unfold EntitlementsAdminController.parseFeature
  cases hf : Feature.ofString? feature with
  | none => exact hnone hf
  | some f => exact hsome f (by simpa using List.find?_some hf)

/-- A new override, or the one that is there with other values. -/
theorem setOverride_reads {uuid actorId : Id} {enabled : Bool} {note : Option String}
    {Q : Opened Db Write Error → Published Write → Db → FeatureOverride → Prop}
    (h : Entitles config d a) (hfails : ∀ e, Fails e → E gs d e)
    (hsaved : ∀ gs d' saved, saved.companyId = companyId → saved.feature = f →
      saved.enabled = enabled → Entitles config d' (a.force companyId f (some enabled)) →
        Q none gs d' saved) :
    Reads adm (fun _ _ => True) E
      (EntitlementService.setOverride uuid companyId f enabled actorId note) Q gs d := by
  have hfault : ∀ e, isFault e = true → E gs d e := fun e he => hfails e (.inl he)
  unfold EntitlementService.setOverride
  refine alone_select_bind hfault ?_
  cases hfind : d.override? companyId f with
  | some existing =>
    obtain ⟨hmem, rfl, rfl⟩ := override?_some hfind
    have hget := Table.get?_of_mem hmem
    have hsave : Entitles config (store.apply d (.saveOverride { existing with
        enabled := enabled, actorId := some actorId, note := note } existing))
        (a.force existing.companyId existing.feature (some enabled)) := h.save hget rfl rfl
    unfold OverrideRepository.save
    refine alone_select_bind hfault ?_
    dsimp only
    rw [hget]
    dsimp only
    split
    · next hsame =>
      have henabled := congrArg (·.enabled) hsame
      simp only [FeatureOverride.overwrite, setColumn_reread] at henabled
      refine hsaved gs d _ rfl rfl rfl (h.force rfl h.one ?_ fun _ _ _ => rfl)
      rw [hfind, henabled]
      rfl
    · exact ⟨hfault, fun _ => ⟨trivial, hsaved _ _ _ rfl rfl rfl hsave⟩⟩
  | none =>
    refine alone_query hfault (fun e he => ?_) fun ws saved hw _ => ?_
    · split at he
      · next v hv =>
        cases he
        unfold OverrideRepository.violation at hv
        rw [hfind] at hv
        split at hv
        · cases hv
          exact hfails _ (.inr rfl)
        · cases hv
      · cases he
    · split at hw
      · cases hw
      · next hnone =>
        cases hw
        exact ⟨trivial, hsaved _ _ _ rfl rfl rfl (h.insert hnone)⟩

theorem clearOverride_reads {Q : Opened Db Write Error → Published Write → Db → Unit → Prop}
    (h : Entitles config d a) (hfault : ∀ e, isFault e = true → E gs d e)
    (hmissing : a.forced companyId f = none → E gs d (.http (.notFound "No such override")))
    (hcleared : ∀ gs d' enabled, a.forced companyId f = some enabled →
      Entitles config d' (a.force companyId f none) → Q none gs d' ()) :
    Reads adm (fun _ _ => True) E (EntitlementService.clearOverride companyId f) Q gs d := by
  unfold EntitlementService.clearOverride
  refine alone_select_bind hfault ?_
  have hforced : a.forced companyId f = (d.override? companyId f).map (·.enabled) := by
    rw [← h.eq]
    rfl
  cases hfind : d.override? companyId f with
  | none => exact hmissing (by rw [hforced, hfind]; rfl)
  | some existing =>
    obtain ⟨hmem, rfl, rfl⟩ := override?_some hfind
    rw [hfind] at hforced
    exact ⟨hfault, fun _ => ⟨trivial, hcleared _ _ _ hforced (h.remove hmem)⟩⟩

end

/-! ## The calls -/

section

variable {config : Config} {d : Db} {a : Entitled} {i : Nat}

/-- The step that a call makes from a database with the state `a`. -/
abbrev Makes (config : Config) (op : Op) (a : Entitled) (p : M Result) (gs : Published Write)
    (d : Db) : Prop :=
  p.Steps (system config) oneAtATime op (Entitles config) (Serves op) a gs d

/-- The override is set or cleared; then comes the audit log, and the answer. -/
theorem audited_makes {op : Op} {a' : Entitled} {x : Result} {log : AuditLog}
    {gs : Published Write} (h : Entitles config d a') (hok : Serves op a a' (.ok x))
    (herr : ∀ e, isFault e = true → Serves op a a' (.error e)) :
    Makes config op a (write (fun _ => [.insertAuditLog log]) >>= fun _ => ret x) gs d :=
  ⟨fun e he => ⟨a', herr e he, h⟩, fun _ => ⟨trivial, rfl, a', hok, h.neutral rfl⟩⟩

theorem setOverride_makes (h : Entitles config d a) {actorId companyId : Id} {feature : String}
    {dto : EntitlementsAdminController.SetFeatureOverrideDto} :
    Makes config (.setOverride actorId companyId feature dto) a
      (program config i (.setOverride actorId companyId feature dto)) [] d := by
  refine reads_bind (reads_bind (parseFeature_reads (fun hf => ⟨a, .setUnknown hf, h⟩) ?_))
  rintro f rfl
  refine reads_bind (setOverride_reads h (fun e he => ⟨a, .setFailed he (.inl rfl), h⟩) ?_)
  intro gs d' saved hcompany hfeature henabled h'
  exact audited_makes h' (.set hcompany hfeature henabled) fun e he =>
    .setFailed (.inl he) (.inr rfl)

theorem clearOverride_makes (h : Entitles config d a) {actorId companyId : Id} {feature : String} :
    Makes config (.clearOverride actorId companyId feature) a
      (program config i (.clearOverride actorId companyId feature)) [] d := by
  refine reads_bind (reads_bind (parseFeature_reads (fun hf => ⟨a, .clearUnknown hf, h⟩) ?_))
  rintro f rfl
  refine reads_bind (clearOverride_reads h (fun e he => ⟨a, .clearFailed he (.inl rfl), h⟩)
    (fun hnone => ⟨a, .missing hnone, h⟩) ?_)
  intro gs d' enabled hsome h'
  exact audited_makes h' (.cleared hsome) fun e he => .clearFailed he (.inr rfl)

theorem entitlements_makes (h : Entitles config d a) {userId : Id} :
    Makes config (.entitlements userId) a (program config i (.entitlements userId)) [] d := by
  obtain ⟨hone, rfl⟩ := id h
  refine reads_bind (getEntitlementsForUser_reads hone
    (fun e he => ⟨_, .tellFailed he, h⟩) (fun hnone => ⟨_, .nobody hnone, h⟩) ?_)
  intro companyId e hcompany hid hplan hactive hfeatures
  exact ⟨rfl, _, .told hcompany hid hplan hactive hfeatures, h⟩

/-- A method of a recruiter, behind the guard. -/
theorem asRecruiter_makes {α : Type} (h : Entitles config d a) {op : Op} {userId : Id}
    {method : Id → M α} {answer : α → Result} (huser : op.recruiter? = some userId)
    (hmethod : ∀ companyId, Neutral (method companyId)) :
    Makes config op a (asRecruiter config userId method >>= fun x => ret (answer x)) [] d := by
  obtain ⟨hone, rfl⟩ := id h
  unfold asRecruiter
  have hfault : ∀ e, isFault e = true → Stepped (Entitles config) (Serves op)
      (d.entitled config) d (.error e) := fun e he => ⟨_, .failed huser he, h⟩
  refine reads_bind (reads_bind (canActivate_reads hone hfault
    (fun hnone => ⟨_, .outsider huser hnone, h⟩)
    (fun c hc hrefused => ⟨_, .refused huser hc hrefused, h⟩) fun c hc hallowed => ?_))
  refine reads_bind (resolveCompanyId_reads hfault
    (fun hnone => ⟨_, .outsider huser hnone, h⟩) fun companyId hcompany => ?_)
  rw [hc] at hcompany
  cases hcompany
  have hplain : Neutral (method c >>= fun x => ret (answer x)) :=
    .bind (hmethod c) fun _ => trivial
  have hsteps : Makes config op (d.entitled config) (method c >>= fun x => ret (answer x)) [] d := by
    refine hplain.steps (P := fun d' => Entitles config d' (d.entitled config)) h
      (fun d' w h' hw => h'.neutral hw) (fun d' x h' => ⟨_, .admitted huser hc hallowed ?_, h'⟩)
      fun d' e h' he => ?_
    · intro f hf
      cases hf
    · rcases he with he | he
      · refine ⟨_, .admitted huser hc hallowed fun f hf => ?_, h'⟩
        cases hf
        exact he f rfl
      · exact ⟨_, .failed huser he, h'⟩
  unfold Makes Prog.Steps at hsteps
  rw [alone_bind] at hsteps
  exact hsteps

/-- The calls of candidates. -/
theorem candidate_makes (h : Entitles config d a) {op : Op} (hop : op.ofCandidate = true)
    {p : M Result} (hp : Neutral p) : Makes config op a p [] d :=
  hp.steps (P := fun d' => Entitles config d' a) h (fun _ _ h' hw => h'.neutral hw)
    (fun _ _ h' => ⟨a, .candidate hop, h'⟩) fun _ _ h' _ => ⟨a, .candidate hop, h'⟩

/-- The writes of other services leave the overrides alone. -/
theorem outside_makes (h : Entitles config d a) {op : Op} {w : Write}
    (hop : ∀ a' r, a'.forced = a.forced → Serves op a a' r)
    (hw : (store.apply d w).overrides = d.overrides) :
    Makes config op a (write (fun _ => [w]) >>= fun _ => ret .unit) [] d := by
  obtain ⟨hone, rfl⟩ := h
  have hone' : OnePerFeature (store.apply d w) := by
    unfold OnePerFeature
    rw [hw]
    exact hone
  have hforced : ((store.apply d w).entitled config).forced = (d.entitled config).forced := by
    unfold Db.entitled Db.override?
    rw [hw]
  exact ⟨fun e _ => ⟨_, hop _ _ rfl, hone, rfl⟩,
    fun _ => ⟨trivial, rfl, _, hop _ _ hforced, hone', rfl⟩⟩

theorem simulates (config : Config) :
    Simulates (system config) oneAtATime (Entitles config) fun _ => Serves := by
  intro i op d a h _
  cases op with
  | elsewhere w => exact outside_makes h (fun _ _ => .elsewhere) rfl
  | removeRecruiter id => exact outside_makes h (fun _ _ => .removed) rfl
  | removeProfile userId =>
    exact candidate_makes h rfl (.bind neutral_removeProfile fun _ => trivial)
  | setOverride actorId companyId feature dto => exact setOverride_makes (i := i) h
  | clearOverride actorId companyId feature => exact clearOverride_makes (i := i) h
  | entitlements userId => exact entitlements_makes (i := i) h
  | createJob userId dto =>
    exact asRecruiter_makes h rfl fun c => neutral_insertRow fun _ => rfl
  | updateJob userId id dto => exact asRecruiter_makes h rfl fun c => neutral_update dto
  | publish userId id =>
    refine asRecruiter_makes h rfl fun c => .bind neutral_loadForCompany fun offer => ?_
    exact .bind (plain_select (.inl rfl) _) fun _ => neutral_saveOffer offer _
  | close userId id =>
    refine asRecruiter_makes h rfl fun c => .bind neutral_loadForCompany fun offer => ?_
    exact neutral_saveOffer offer _
  | list userId =>
    refine asRecruiter_makes h rfl fun c => .bind (plain_select (.inl rfl) _) fun os => ?_
    exact neutral_withCounts os
  | getOne userId id =>
    exact asRecruiter_makes h rfl fun c => .bind neutral_loadForCompany fun o => neutral_counted o
  | applicationsFor userId id => exact asRecruiter_makes h rfl fun c => neutral_listForOffer
  | updateApplicationStatus userId id status =>
    exact asRecruiter_makes h rfl fun c => neutral_updateStatus status
  | mine userId => exact candidate_makes h rfl (.bind (plain_select (.inl rfl) _) fun _ => trivial)
  | eligibility userId =>
    refine candidate_makes h rfl (.bind (.bind ?_ fun _ => trivial) fun _ => trivial)
    exact .bind (plain_select (.inl rfl) _) fun _ => .bind (plain_select (.inl rfl) _) fun _ => trivial
  | detail id =>
    refine candidate_makes h rfl (.bind (.bind (plain_select (.inl rfl) _) fun offer => ?_)
      fun _ => trivial)
    cases offer with
    | none => exact http_ne _
    | some offer => exact neutral_counted offer
  | apply userId id coverLetter =>
    exact candidate_makes h rfl (.bind (neutral_apply coverLetter) fun _ => trivial)

/-- The states at rest of a run of calls one at a time are those of the machine, with the same
answers. -/
theorem entitlements_explained {config : Config} {d₀ : Db} {s : RunState}
    (hone : OnePerFeature d₀) (hs : (system config).Reach oneAtATime d₀ s) (hidle : s.Idle) :
    ∃ cs, Explains (fun _ => Serves) (d₀.entitled config) cs (s.db.entitled config) ∧
      s.Answered cs ∧ OnePerFeature s.db := by
  obtain ⟨cs, a, hcs, hanswered, hone', rfl⟩ :=
    Simulates.explains (simulates config) rfl ⟨hone, rfl⟩ hs hidle
  exact ⟨cs, hcs, hanswered, hone'⟩

end

/-- An admin forces the offers of company 1 off; its recruiter is refused, and can read why. -/
theorem entitlements_explained_board : ∃ (s : RunState) (cs : List (Op × Except Error Result)),
    Explains (fun _ => Serves) (board.entitled .default) cs (s.db.entitled .default) ∧
      cs[1]? = some (.list 5, .error (.featureNotAvailable .jobs)) := by
  have hrun : (((system .default).runLabels oneAtATime (State.init board)
      (.spawn (.setOverride 900 1 "jobs" ⟨false, none⟩) :: steps 0 4 ++
        .spawn (.list 5) :: steps 1 5)).map fun s => (s.ops, s.call 1, (s.call 1).isRunning)) =
      some ([.setOverride 900 1 "jobs" ⟨false, none⟩, .list 5],
        .done (.error (.featureNotAvailable .jobs)), false) := by rfl
  obtain ⟨s, hs, he⟩ := System.reach_of_run hrun
  simp only [Prod.mk.injEq] at he
  obtain ⟨hops, hcall, hidle⟩ := he
  have hone : OnePerFeature board := by
    intro o ho
    cases ho
  obtain ⟨cs, hcs, ⟨hcalls, hanswers⟩, -⟩ := entitlements_explained hone hs
    ((hs.onlyLast rfl).atRest (by rw [hops]; exact hidle))
  rw [hops] at hcalls
  refine ⟨s, cs, hcs, ?_⟩
  obtain ⟨⟨op₀, r₀⟩, rest, rfl, -, hrest⟩ := List.map_eq_cons_iff.1 hcalls
  obtain ⟨⟨op₁, r₁⟩, rest', rfl, rfl, -⟩ := List.map_eq_cons_iff.1 hrest
  have hsame := (hanswers 1 (.list 5) r₁ rfl).symm.trans hcall
  cases hsame
  rfl

end JobBoard.Jobs
