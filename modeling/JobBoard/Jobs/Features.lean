import JobBoard.Model.Entities

/-!
# The features and limits of the plans

The matrix of entitlements.matrix.ts. `Feature.ofString?` is the check of a feature that an admin
names in a path.
-/

set_option autoImplicit false

namespace JobBoard.Jobs

inductive Feature where
  | cvDatabase | candidateSearch | profileFilter | schoolFilter | scoreSort | evaluations
  | advancedEvaluations | jobs | applications | shortlist | antiCheat | basicAnalytics
  | advancedAnalytics | exportCandidates | apiAccess | multiUser | prioritySupport
  deriving DecidableEq, Repr

namespace Feature

def toString : Feature → String
  | cvDatabase => "cv_database"
  | candidateSearch => "candidate_search"
  | profileFilter => "profile_filter"
  | schoolFilter => "school_filter"
  | scoreSort => "score_sort"
  | evaluations => "evaluations"
  | advancedEvaluations => "advanced_evaluations"
  | jobs => "jobs"
  | applications => "applications"
  | shortlist => "shortlist"
  | antiCheat => "anti_cheat"
  | basicAnalytics => "basic_analytics"
  | advancedAnalytics => "advanced_analytics"
  | exportCandidates => "export_candidates"
  | apiAccess => "api_access"
  | multiUser => "multi_user"
  | prioritySupport => "priority_support"

/-- `Object.values(Feature)`. -/
def all : List Feature :=
  [cvDatabase, candidateSearch, profileFilter, schoolFilter, scoreSort, evaluations,
    advancedEvaluations, jobs, applications, shortlist, antiCheat, basicAnalytics,
    advancedAnalytics, exportCandidates, apiAccess, multiUser, prioritySupport]

def ofString? (value : String) : Option Feature := all.find? (·.toString = value)

theorem ofString?_toString (f : Feature) : ofString? f.toString = some f := by cases f <;> rfl

end Feature

inductive LimitKey where
  | maxEvaluationsMonth | maxUsers | maxJobPosts | maxExportsMonth
  deriving DecidableEq, Repr

/-- `none` is unlimited. -/
abbrev Limits := LimitKey → Option Nat

def limits (evaluations users jobPosts exports : Option Nat) : Limits
  | .maxEvaluationsMonth => evaluations
  | .maxUsers => users
  | .maxJobPosts => jobPosts
  | .maxExportsMonth => exports

def ZERO_LIMITS : Limits := limits (some 0) (some 1) (some 0) (some 0)

structure PlanEntitlements where
  displayName : String
  features : List Feature
  limits : Limits

def PLAN_DISPLAY_NAME : SubscriptionPlan → String
  | .starter => "Starter"
  | .growth => "Pro"
  | .scale => "Premium"
  | .enterprise => "Enterprise"

def BASE_FEATURES : List Feature :=
  [.cvDatabase, .candidateSearch, .profileFilter, .schoolFilter, .scoreSort, .evaluations,
    .basicAnalytics, .multiUser]

def PLAN_ENTITLEMENTS : SubscriptionPlan → PlanEntitlements
  | .starter => ⟨"Starter", BASE_FEATURES, limits (some 3) (some 1) (some 0) (some 10)⟩
  | .growth =>
    ⟨"Pro",
      BASE_FEATURES ++ [.advancedEvaluations, .jobs, .applications, .shortlist, .exportCandidates,
        .prioritySupport],
      limits (some 20) (some 3) (some 5) none⟩
  | .scale =>
    ⟨"Premium",
      BASE_FEATURES ++ [.advancedEvaluations, .jobs, .applications, .shortlist, .exportCandidates,
        .prioritySupport, .advancedAnalytics],
      limits none (some 10) (some 20) none⟩
  | .enterprise =>
    ⟨"Enterprise",
      BASE_FEATURES ++ [.advancedEvaluations, .jobs, .applications, .shortlist, .exportCandidates,
        .prioritySupport, .advancedAnalytics, .apiAccess],
      limits none none none none⟩

/-- A plan has an entry in the matrix. -/
def entitlementsForPlan (plan : SubscriptionPlan) : PlanEntitlements := PLAN_ENTITLEMENTS plan

/-! ## The ladder of the plans -/

/-- The order of the plans. -/
def rank : SubscriptionPlan → Nat
  | .starter => 0
  | .growth => 1
  | .scale => 2
  | .enterprise => 3

/-- A higher plan has all features of a lower one. -/
theorem features_mono {p q : SubscriptionPlan} (h : rank p ≤ rank q) {f : Feature}
    (hf : f ∈ (entitlementsForPlan p).features) : f ∈ (entitlementsForPlan q).features := by
  cases p <;> cases q <;> revert h hf <;> cases f <;> decide

theorem base_features {f : Feature} (hf : f ∈ BASE_FEATURES) (plan : SubscriptionPlan) :
    f ∈ (entitlementsForPlan plan).features := by
  cases plan <;> revert hf <;> cases f <;> decide

end JobBoard.Jobs
