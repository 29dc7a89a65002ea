import SimMaster.RegEventXml

/-!
# The snapshot of the own binding

`RegEventBinding` is what the final REGISTER request says about the binding; `Snapshot.apply`
compares a reginfo document with it and remembers the version and the ids under which the own
contact was listed. `Snapshot.apply_cases` lists everything an application can do, and
`Document.Revokes` and `Document.Establishes` say what a document is evidence of.
-/

namespace SimMaster

namespace RegEvent

open Rust List Option

/-- Only public binding facts, never REGISTER headers, private identity or AKA. -/
structure RegEventBinding where
  aor : Str
  contactUri : Str
  instanceId : Option Str
  regId : Option ℕ
  deriving DecidableEq

def RegEventBinding.fromRegisterRequest (wire : Bytes) : Except ImsError RegEventBinding := do
  let frame ← Frame.parse wire
  if frame.method ≠ some "REGISTER".toList ∨ frame.body ≠ [] then
    throw invalid
  let toAddress ← address (← frame.required "to")
  let fromAddress ← address (← frame.required "from")
  if toAddress.uri ≠ fromAddress.uri then
    throw invalid
  let contact ← address (← frame.required "contact")
  let instanceId ← (contact.param "+sip.instance").mapM instanceValue
  let regId ← (contact.param "reg-id").mapM positive
  if regId.isSome && instanceId.isNone then
    throw invalid
  return { aor := toAddress.uri, contactUri := contact.uri, instanceId, regId }

inductive RegEventEffect where
  | none
  | bindingTerminated (reason : TerminationReason) (retryAfter : Option ℕ)
  | needFull
  deriving DecidableEq

/-- The effect reports the end of the binding. -/
def RegEventEffect.isTermination : RegEventEffect → Bool
  | bindingTerminated _ _ => true
  | _ => false

structure Snapshot where
  version : Option ℕ := none
  own : Option (Str × Str) := none
  revoked : Bool := false
  deriving DecidableEq

/-! ## Matching contacts -/

/-- URI, instance and reg-id are those of the binding. -/
def Contact.exact (contact : Contact) (binding : RegEventBinding) : Bool :=
  contact.uri == some binding.contactUri && contact.instanceId == binding.instanceId &&
    contact.regId == binding.regId

/-- A URI, instance or reg-id that is given and is not the binding's. -/
def Contact.contradicts (contact : Contact) (binding : RegEventBinding) : Bool :=
  contact.uri.any (· != binding.contactUri) ||
    contact.instanceId.any (some · != binding.instanceId) ||
    contact.regId.any (some · != binding.regId)

/-- In a partial document the id recorded for the own contact names it. -/
def Contact.mapped (contact : Contact) (full : Bool) (priorContact : Option Str) : Bool :=
  !full && priorContact == some contact.id

/-- The one contact of a registration that is the own one; `matched` is the one found so far. -/
def matchContacts (binding : RegEventBinding) (full : Bool) (priorContact : Option Str) :
    Option Contact → List Contact → Except ImsError (Option Contact)
  | matched, [] => .ok matched
  | matched, contact :: contacts =>
    -- an old contact id is not permission to borrow another flow's explicit identity
    if contact.mapped full priorContact && contact.contradicts binding then .error invalid
    else if contact.exact binding || contact.mapped full priorContact then
      if matched.isSome then .error invalid
      else matchContacts binding full priorContact (some contact) contacts
    else matchContacts binding full priorContact matched contacts

/-- The effect of a document that is not stale, and the ids of the own contact after it. -/
def Snapshot.outcome (snapshot : Snapshot) (document : Document) (binding : RegEventBinding) :
    Except ImsError (RegEventEffect × Option (Str × Str)) :=
  let nextOwn := if document.full then none else snapshot.own
  match document.registrations.find? (·.aor == binding.aor) with
  | none => .ok (.none, nextOwn)
  | some registration => do
    let priorContact := (snapshot.own.filter (·.1 == registration.id)).map (·.2)
    match ← matchContacts binding document.full priorContact none registration.contacts with
    | some contact =>
      if contact.state = .terminated then
        let reason ← okOrInvalid contact.reason
        return (.bindingTerminated reason contact.retryAfter, none)
      else return (.none, some (registration.id, contact.id))
    | none =>
      -- an initial empty full document is not evidence
      if priorContact.isSome && registration.contacts.isEmpty &&
          (document.full || registration.state == .terminated) then
        return (.bindingTerminated .unregistered none, none)
      else return (.none, nextOwn)

/-- `u32::checked_add(1)`. -/
def checkedSucc (n : ℕ) : Option ℕ := if n + 1 ≤ u32Max then some (n + 1) else none

def Snapshot.apply (snapshot : Snapshot) (document : Document) (binding : RegEventBinding) :
    Except ImsError RegEventEffect × Snapshot :=
  if snapshot.version.any (document.version ≤ ·) then (.ok .none, snapshot)
  else if !document.full && snapshot.version.bind checkedSucc != some document.version then
    (.ok .needFull, snapshot)
  else match snapshot.outcome document binding with
    | .error e => (.error e, snapshot)
    | .ok (effect, nextOwn) =>
      let snapshot := { snapshot with version := some document.version, own := nextOwn }
      if snapshot.revoked then (.ok .none, snapshot)
      else if effect.isTermination then (.ok effect, { snapshot with revoked := true })
      else (.ok effect, snapshot)

/-! ## What a document is evidence of -/

/-- The document lists, under the binding's AoR, an active contact that is exactly the binding's;
`ids` are those of the registration and the contact. -/
def Document.Establishes (document : Document) (binding : RegEventBinding) (ids : Str × Str) :
    Prop :=
  ∃ registration ∈ document.registrations, registration.aor = binding.aor ∧
    registration.id = ids.1 ∧ ∃ contact ∈ registration.contacts, contact.id = ids.2 ∧
      contact.state = .active ∧ contact.exact binding = true

/-- The document says that the binding ended, given that the pairs of ids in `Known` were
established before: a terminated contact that is exactly the binding's, or that a partial document
names by known ids without contradicting the binding; or no contacts at all in a registration with a
known id. -/
def Document.Revokes (document : Document) (binding : RegEventBinding)
    (Known : Str × Str → Prop) : Prop :=
  ∃ registration ∈ document.registrations, registration.aor = binding.aor ∧
    ((∃ contact ∈ registration.contacts, contact.state = .terminated ∧
      (contact.exact binding = true ∨ document.full = false ∧
        Known (registration.id, contact.id) ∧ contact.contradicts binding = false)) ∨
    registration.contacts = [] ∧ ∃ contactId, Known (registration.id, contactId))

variable {document : Document} {binding : RegEventBinding}

/-- Evidence stays evidence when more ids are known. -/
theorem Document.Revokes.mono {Known Known' : Str × Str → Prop} (h : document.Revokes binding Known)
    (hknown : ∀ ids, Known ids → Known' ids) : document.Revokes binding Known' := by
  obtain ⟨registration, hmem, haor, hends⟩ := h
  refine ⟨registration, hmem, haor, hends.imp ?_ ?_⟩
  · rintro ⟨contact, hcontact, hstate, hown⟩
    exact ⟨contact, hcontact, hstate, hown.imp_right fun ⟨hfull, hid, hconsistent⟩ =>
      ⟨hfull, hknown _ hid, hconsistent⟩⟩
  · rintro ⟨hempty, contactId, hid⟩
    exact ⟨hempty, contactId, hknown _ hid⟩

variable {full : Bool} {contact : Contact}

theorem matchContacts_some {priorContact : Option Str} {contacts : List Contact} :
    ∀ {matched}, matchContacts binding full priorContact matched contacts = .ok (some contact) →
      matched = some contact ∨ contact ∈ contacts ∧ (contact.exact binding = true ∨
          contact.mapped full priorContact = true ∧ contact.contradicts binding = false) := by
  induction contacts with
  | nil =>
    intro matched h
    exact Or.inl (Except.ok.inj h)
  | cons head contacts ih =>
    intro matched h
    rw [matchContacts] at h
    split_ifs at h with hconflict hfound hmatched
    · rcases ih h with heq | ⟨hmem, hown⟩
      · obtain rfl := some.inj heq
        refine Or.inr ⟨mem_cons_self, ?_⟩
        rw [Bool.or_eq_true] at hfound
        rw [Bool.and_eq_true, not_and, Bool.not_eq_true] at hconflict
        exact hfound.imp_right fun hmapped => ⟨hmapped, hconflict hmapped⟩
      · exact Or.inr ⟨mem_cons_of_mem _ hmem, hown⟩
    · rcases ih h with heq | ⟨hmem, hown⟩
      · exact Or.inl heq
      · exact Or.inr ⟨mem_cons_of_mem _ hmem, hown⟩

/-- The recorded ids of a mapped contact. -/
theorem own_of_mapped {own : Option (Str × Str)} {registrationId : Str}
    (h : contact.mapped full ((own.filter (·.1 == registrationId)).map (·.2)) = true) :
    full = false ∧ own = some (registrationId, contact.id) := by
  rw [Contact.mapped, Bool.and_eq_true, Bool.not_eq_true', beq_iff_eq] at h
  obtain ⟨hfull, hprior⟩ := h
  obtain ⟨⟨id, contactId⟩, hown, hid⟩ := map_eq_some_iff.1 hprior
  obtain ⟨rfl, hreg⟩ := filter_eq_some_iff.1 hown
  rw [beq_iff_eq] at hreg
  exact ⟨hfull, by rw [← hreg, ← hid]⟩

/-- What an applied document does to the own ids, and what it must say to end the binding. -/
theorem Snapshot.outcome_ok {snapshot : Snapshot} {effect : RegEventEffect}
    {nextOwn : Option (Str × Str)} (h : snapshot.outcome document binding = .ok (effect, nextOwn)) :
    effect ≠ .needFull ∧ (effect.isTermination = true →
        document.Revokes binding fun ids => snapshot.own = some ids) ∧
      ∀ ids, nextOwn = some ids → document.Establishes binding ids ∨ snapshot.own = some ids := by
  have hunchanged : ∀ ids, (if document.full then none else snapshot.own) = some ids →
      snapshot.own = some ids := by
    intro ids hids
    split at hids
    · cases hids
    · exact hids
  rw [outcome] at h
  cases hfind : document.registrations.find? (·.aor == binding.aor) with
  | none =>
    rw [hfind] at h
    cases h
    exact ⟨by simp, by simp [RegEventEffect.isTermination], fun ids hids =>
      Or.inr (hunchanged ids hids)⟩
  | some registration =>
    have hmem := mem_of_find?_eq_some hfind
    have haor : registration.aor = binding.aor := by simpa using find?_some hfind
    rw [hfind] at h
    obtain ⟨matched, hmatch, h⟩ := bind_eq_ok.1 h
    cases matched with
    | none =>
      dsimp only at h
      split at h
      next hempty =>
        -- the registration is empty
        cases h
        simp only [Bool.and_eq_true, List.isEmpty_iff] at hempty
        obtain ⟨⟨hprior, hcontacts⟩, -⟩ := hempty
        obtain ⟨contactId, hprior⟩ := isSome_iff_exists.1 hprior
        obtain ⟨⟨id, contactId⟩, hown, -⟩ := map_eq_some_iff.1 hprior
        obtain ⟨hown, hid⟩ := filter_eq_some_iff.1 hown
        rw [beq_iff_eq] at hid
        refine ⟨by simp, fun _ => ?_, by simp⟩
        exact ⟨registration, hmem, haor, Or.inr ⟨hcontacts, contactId, by rw [hown, ← hid]⟩⟩
      next =>
        cases h
        exact ⟨by simp, by simp [RegEventEffect.isTermination], fun ids hids =>
          Or.inr (hunchanged ids hids)⟩
    | some contact =>
      rcases matchContacts_some hmatch with hnone | ⟨hcontact, hown⟩
      · cases hnone
      dsimp only at h
      split_ifs at h with hstate
      · -- the own contact is terminated
        obtain ⟨reason, -, h⟩ := bind_eq_ok.1 h
        cases h
        refine ⟨by simp, fun _ => ?_, by simp⟩
        refine ⟨registration, hmem, haor, Or.inl ⟨contact, hcontact, hstate, ?_⟩⟩
        refine hown.imp_right fun ⟨hmapped, hconsistent⟩ => ?_
        obtain ⟨hfull, hown⟩ := own_of_mapped hmapped
        exact ⟨hfull, hown, hconsistent⟩
      · -- the own contact is active
        cases h
        refine ⟨by simp, by simp [RegEventEffect.isTermination], ?_⟩
        rintro ids ⟨⟩
        have hactive : contact.state = .active := by
          cases hs : contact.state with
          | active => rfl
          | terminated => exact absurd hs hstate
        rcases hown with hexact | ⟨hmapped, -⟩
        · exact Or.inl ⟨registration, hmem, haor, rfl, contact, hcontact, rfl, hactive, hexact⟩
        · exact Or.inr (own_of_mapped hmapped).2

/-! ## Applying a document -/

/-- The versions allow the document: it is newer than the last one applied, and a partial document
is the very next one. -/
def Document.Follows (document : Document) (version : Option ℕ) : Prop :=
  (∀ v ∈ version, v < document.version) ∧
    (document.full = false → ∃ v ∈ version, document.version = v + 1)

instance (document : Document) (version : Option ℕ) : Decidable (document.Follows version) :=
  inferInstanceAs (Decidable (_ ∧ _))

/-- Everything an application can do: refuse the document, ask for a full one or ignore a stale one
without a change, or apply it. -/
theorem Snapshot.apply_cases (snapshot : Snapshot) (document : Document)
    (binding : RegEventBinding) : ((snapshot.apply document binding).2 = snapshot ∧
      ∀ effect, (snapshot.apply document binding).1 = .ok effect → effect.isTermination = false ∧
        (document.version ≤ u32Max → ¬ document.Follows snapshot.version)) ∨
    (document.Follows snapshot.version ∧ ∃ effect nextOwn,
      snapshot.outcome document binding = .ok (effect, nextOwn) ∧
      (snapshot.apply document binding).1 = .ok (if snapshot.revoked then .none else effect) ∧
      (snapshot.apply document binding).2 = {
          version := some document.version
          own := nextOwn
          revoked := snapshot.revoked || effect.isTermination }) := by
  by_cases hstale : snapshot.version.any (document.version ≤ ·) = true
  · left
    rw [apply, if_pos hstale]
    refine ⟨rfl, ?_⟩
    rintro effect ⟨⟩
    refine ⟨rfl, fun _ hfollows => ?_⟩
    obtain ⟨v, hv, hle⟩ := (Option.any_eq_true _ _).1 hstale
    exact absurd (hfollows.1 v hv) (Nat.not_lt.2 (by simpa using hle))
  by_cases hgap : (!document.full && snapshot.version.bind checkedSucc != some document.version) =
    true
  · left
    rw [apply, if_neg hstale, if_pos hgap]
    refine ⟨rfl, ?_⟩
    rintro effect ⟨⟩
    refine ⟨rfl, fun hbound hfollows => ?_⟩
    simp only [Bool.and_eq_true, Bool.not_eq_true', bne_iff_ne, ne_eq] at hgap
    obtain ⟨v, hv, hsucc⟩ := hfollows.2 hgap.1
    refine hgap.2 ?_
    rw [hv, bind_some, checkedSucc, if_pos (by omega), hsucc]
  cases hout : snapshot.outcome document binding with
  | error e =>
    left
    rw [apply, if_neg hstale, if_neg hgap, hout]
    exact ⟨rfl, by rintro effect ⟨⟩⟩
  | ok result =>
    obtain ⟨effect, nextOwn⟩ := result
    right
    refine ⟨⟨?_, ?_⟩, effect, nextOwn, rfl, ?_⟩
    · intro v hv
      rw [mem_def.1 hv] at hstale
      simpa using hstale
    · intro hfull
      rw [hfull] at hgap
      simp only [Bool.not_false, Bool.true_and, bne_iff_ne, ne_eq, not_not] at hgap
      obtain ⟨v, hv, hsucc⟩ := bind_eq_some_iff.1 hgap
      rw [checkedSucc] at hsucc
      split at hsucc
      · exact ⟨v, hv, (some.inj hsucc).symm⟩
      · cases hsucc
    · rw [apply, if_neg hstale, if_neg hgap, hout]
      cases snapshot.revoked with
      | true => simp
      | false =>
        cases hterm : effect.isTermination with
        | true => simp [hterm]
        | false => simp [hterm]

end RegEvent

end SimMaster
