import Mathlib

/-!
# The plan of a voice route

A policy lists the access legs, and a leg that is registered and has its media gateway is a
candidate. The candidates come in a fixed order, each once.
-/

namespace SimMaster.Trunk

open List

inductive AccessPathKind where
  | vowifi
  | cellularIms
  | cs
  deriving DecidableEq

def AccessPathKind.isIms : AccessPathKind → Bool
  | .vowifi | .cellularIms => true
  | .cs => false

/-- The key by which the candidates are sorted. -/
def AccessPathKind.rank : AccessPathKind → ℕ
  | .vowifi => 0
  | .cellularIms => 1
  | .cs => 2

structure PathLayerConfig where
  kind : AccessPathKind
  enabled : Bool
  deriving DecidableEq

structure VoicePathPolicy where
  priority : List PathLayerConfig
  gatewayMode : Bool
  deriving DecidableEq

/-- The kinds that were seen, and the layers that are kept. -/
structure Deduped where
  seen : List AccessPathKind := []
  deduped : List PathLayerConfig := []

/-- A layer of an IMS leg is kept the first time it is listed. -/
def Deduped.add (d : Deduped) (layer : PathLayerConfig) : Deduped :=
  if layer.kind.isIms && !d.seen.contains layer.kind then
    { seen := d.seen ++ [layer.kind], deduped := d.deduped ++ [layer] }
  else d

/-- An IMS leg that was not listed is enabled. -/
def Deduped.addMissing (d : Deduped) (kind : AccessPathKind) : List PathLayerConfig :=
  if d.seen.contains kind then [] else [⟨kind, true⟩]

def VoicePathPolicy.normalized (policy : VoicePathPolicy) : VoicePathPolicy :=
  let d := policy.priority.foldl Deduped.add {}
  { policy with
    priority := d.deduped ++ ([AccessPathKind.vowifi, .cellularIms].flatMap d.addMissing) }

structure VoiceLegReadiness where
  kind : AccessPathKind
  featureEnabled : Bool
  registered : Bool
  mediaGatewayReady : Bool
  deriving DecidableEq

inductive VoiceRouteRejection where
  | policyDisabled
  | featureDisabled
  | notRegistered
  | mediaGatewayUnavailable
  deriving DecidableEq

structure VoiceRoutePlan where
  gatewayMode : Bool
  candidates : List AccessPathKind
  rejected : List (AccessPathKind × VoiceRouteRejection)
  deriving DecidableEq

/-- Why a leg cannot carry the call. -/
def rejectionOf (gatewayMode : Bool) (readiness : List VoiceLegReadiness)
    (layer : PathLayerConfig) : Option VoiceRouteRejection :=
  if !layer.enabled then some .policyDisabled
  else match readiness.find? (·.kind == layer.kind) with
    | none => some .featureDisabled
    | some state =>
      if !state.featureEnabled then some .featureDisabled
      else if !state.registered then some .notRegistered
      else if gatewayMode && !state.mediaGatewayReady then some .mediaGatewayUnavailable
      else none

def planVoiceRoute (policy : VoicePathPolicy) (readiness : List VoiceLegReadiness) :
    VoiceRoutePlan :=
  let policy := policy.normalized
  let rejection := rejectionOf policy.gatewayMode readiness
  { gatewayMode := policy.gatewayMode
    candidates := ((policy.priority.filter fun layer => (rejection layer).isNone).map
      (·.kind)).insertionSort (·.rank ≤ ·.rank)
    rejected := policy.priority.filterMap fun layer =>
      (rejection layer).map fun reason => (layer.kind, reason) }

/-! ## The candidates -/

theorem AccessPathKind.rank_injective : Function.Injective AccessPathKind.rank := by
  intro kind kind' h
  cases kind <;> cases kind' <;> first | rfl | cases h

/-- Each kind is kept once. -/
structure Deduped.Once (d : Deduped) : Prop where
  kinds : d.deduped.map (·.kind) = d.seen
  nodup : d.seen.Nodup

variable {d : Deduped}

theorem Deduped.Once.add (h : d.Once) (layer : PathLayerConfig) : (d.add layer).Once := by
  unfold Deduped.add
  split
  next hnew =>
    rw [Bool.and_eq_true, Bool.not_eq_true', contains_eq_mem, decide_eq_false_iff_not] at hnew
    refine ⟨by rw [map_append, h.kinds]; rfl, ?_⟩
    exact nodup_append.mpr ⟨h.nodup, nodup_singleton _, fun kind hkind kind' hkind' =>
      mem_singleton.mp hkind' ▸ fun heq => hnew.2 (heq ▸ hkind)⟩
  next => exact h

theorem Deduped.Once.foldl (h : d.Once) (layers : List PathLayerConfig) :
    (layers.foldl Deduped.add d).Once := by
  induction layers generalizing d with
  | nil => exact h
  | cons layer layers ih => exact ih (h.add layer)

theorem nodup_normalized (policy : VoicePathPolicy) :
    (policy.normalized.priority.map (·.kind)).Nodup := by
  have honce : (policy.priority.foldl Deduped.add {}).Once :=
    Deduped.Once.foldl ⟨rfl, nodup_nil⟩ policy.priority
  have hkinds : ∀ d : Deduped, d.Once →
      ((d.deduped ++ [AccessPathKind.vowifi, .cellularIms].flatMap d.addMissing).map
        (·.kind)).Nodup := by
    intro d hd
    have hmissing : ([AccessPathKind.vowifi, .cellularIms].flatMap d.addMissing).map (·.kind) =
        [AccessPathKind.vowifi, .cellularIms].filter fun kind => !d.seen.contains kind := by
      simp only [flatMap_cons, flatMap_nil, Deduped.addMissing, filter_cons, filter_nil]
      cases d.seen.contains AccessPathKind.vowifi <;>
        cases d.seen.contains AccessPathKind.cellularIms <;> rfl
    rw [map_append, hd.kinds, hmissing, nodup_append]
    refine ⟨hd.nodup, Nodup.filter _ (by decide), fun kind hkind kind' hkind' heq => ?_⟩
    have hnew := (mem_filter.mp hkind').2
    rw [Bool.not_eq_true', contains_eq_mem, decide_eq_false_iff_not] at hnew
    exact hnew (heq ▸ hkind)
  exact hkinds _ honce

/-- The candidates come in the order of their ranks, each once. -/
theorem candidates_pairwise (policy : VoicePathPolicy) (readiness : List VoiceLegReadiness) :
    (planVoiceRoute policy readiness).candidates.Pairwise (·.rank < ·.rank) := by
  have hsorted : (planVoiceRoute policy readiness).candidates.Pairwise (·.rank ≤ ·.rank) :=
    pairwise_insertionSort _ _
  have hnodup : (planVoiceRoute policy readiness).candidates.Nodup := by
    refine (perm_insertionSort _ _).nodup_iff.mpr ?_
    exact (nodup_normalized policy).sublist (filter_sublist.map _)
  refine (hsorted.and hnodup).imp fun hle => ?_
  exact Nat.lt_of_le_of_ne hle.1 fun heq => hle.2 (AccessPathKind.rank_injective heq)

end SimMaster.Trunk
