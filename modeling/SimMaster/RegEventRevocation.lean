import SimMaster.RegEventNotify

/-!
# A binding is reported as terminated once, and on evidence

The end of the binding is reported by an accepted NOTIFY only, and it disables the observer, so
there is one report in a run at most. What the report rests on is the document of that NOTIFY
together with the documents accepted before it: `RevocationInvariant` ties the snapshot to them, and
`bindingTerminated_evidence` is the result.
-/

namespace SimMaster

namespace RegEvent

namespace RegEventSubscription

open Rust Method List Option

variable {xml : XmlReader} {frame : Frame} {wire : Bytes} {now : ℕ}
  {self next : RegEventSubscription}

/-! ## Documents in the history -/

/-- The document in the body of a frame. -/
def documentOf (xml : XmlReader) (wire : Bytes) : Option Document := do
  let frame ← (Frame.parse wire).toOption
  (parseDocument xml frame.body).toOption

/-- The documents of the NOTIFY requests answered with 200, in order. -/
def acceptedDocuments (xml : XmlReader) (history : List (Call × Answer)) : List Document :=
  (history.filterMap acceptedNotify).filterMap (documentOf xml)

/-- The version after a document: its own if it follows, else the one before. -/
def versionAfter (version : Option ℕ) (document : Document) : Option ℕ :=
  if document.Follows version then some document.version else version

/-- The version of the last document applied. -/
def lastApplied (documents : List Document) : Option ℕ := documents.foldl versionAfter none

/-- The call reported the end of the binding. -/
def reportsTermination : Call × Answer → Bool
  | (_, .frame (.notify _ effect)) => effect.isTermination
  | _ => false

theorem acceptedDocuments_concat (xml : XmlReader) (history : List (Call × Answer))
    (entry : Call × Answer) :
    acceptedDocuments xml (history ++ [entry]) =
      acceptedDocuments xml history ++ ((acceptedNotify entry).bind (documentOf xml)).toList := by
  cases haccepted : acceptedNotify entry with
  | none => simp [acceptedDocuments, haccepted]
  | some wire => cases hdoc : documentOf xml wire <;> simp [acceptedDocuments, haccepted, hdoc]

theorem lastApplied_concat (documents : List Document) (document : Document) :
    lastApplied (documents ++ [document]) = versionAfter (lastApplied documents) document :=
  foldl_concat ..

theorem not_follows_self (document : Document) : ¬ document.Follows (some document.version) :=
  fun h => absurd (h.1 _ rfl) (Nat.lt_irrefl _)

/-- A document never follows the version after it. -/
theorem not_follows_versionAfter (version : Option ℕ) (document : Document) :
    ¬ document.Follows (versionAfter version document) := by
  rw [versionAfter]
  split
  · exact not_follows_self document
  · assumption

variable {document : Document}

theorem versionAfter_of_not_follows {version : Option ℕ}
    (h : ¬ document.Follows version) : versionAfter version document = version := if_neg h

/-! ## The document of a NOTIFY -/

theorem unsigned_le {value : Str} {n : ℕ} (h : unsigned value = .ok n) : n ≤ u32Max := by
  rw [unsigned] at h
  split at h
  · cases h
  · exact parseUnsigned_le (okOrInvalid_eq_ok.1 h)

/-- The version of a document is a `u32`. -/
theorem parseDocument_version_le {body : Bytes}
    (h : parseDocument xml body = .ok document) : document.version ≤ u32Max := by
  obtain ⟨root, -, h⟩ := bind_eq_ok.1 h
  obtain ⟨-, h⟩ := guard_eq_ok h
  obtain ⟨-, -, h⟩ := bind_eq_ok.1 h
  obtain ⟨value, -, h⟩ := bind_eq_ok.1 h
  obtain ⟨version, hversion, h⟩ := bind_eq_ok.1 h
  obtain ⟨mode, -, h⟩ := bind_eq_ok.1 h
  obtain ⟨full, -, h⟩ := bind_eq_ok.1 h
  obtain ⟨registrations, -, h⟩ := bind_eq_ok.1 h
  cases h
  exact unsigned_le hversion

theorem parseDocument_nil : parseDocument xml [] = .error invalid := rfl

/-- The document of an accepted NOTIFY is the one in its body. -/
theorem notifyContent_eq_ok {subscription : SubscriptionState} {document : Option Document}
    (h : notifyContent xml frame = .ok (subscription, document)) :
    (∃ value, subscriptionState value = .ok subscription) ∧
      document = (parseDocument xml frame.body).toOption := by
  obtain ⟨stateValue, -, h⟩ := bind_eq_ok.1 h
  obtain ⟨state, hstate, h⟩ := bind_eq_ok.1 h
  have hstate := orStatus_eq_ok.1 hstate
  obtain ⟨contentType, -, h⟩ := bind_eq_ok.1 h
  obtain ⟨required, -, h⟩ := bind_eq_ok.1 h
  obtain ⟨-, h⟩ := guard_eq_ok h
  obtain ⟨via, -, h⟩ := bind_eq_ok.1 h
  obtain ⟨⟨sentBy, viaParams⟩, -, h⟩ := bind_eq_ok.1 h
  obtain ⟨-, h⟩ := guard_eq_ok h
  split at h
  next hempty =>
    cases h
    rw [Bool.and_eq_true, List.isEmpty_iff] at hempty
    rw [hempty.1, parseDocument_nil]
    exact ⟨⟨_, hstate⟩, rfl⟩
  obtain ⟨mediaValue, -, h⟩ := bind_eq_ok.1 h
  obtain ⟨⟨media, params⟩, -, h⟩ := bind_eq_ok.1 h
  obtain ⟨-, h⟩ := guard_eq_ok h
  obtain ⟨parsed, hparsed, h⟩ := bind_eq_ok.1 h
  cases h
  rw [orStatus_eq_ok.1 hparsed]
  exact ⟨⟨_, hstate⟩, rfl⟩

theorem withRetryAfter_isTermination (retryAfter : Option ℕ) (effect : RegEventEffect) :
    (withRetryAfter retryAfter effect).isTermination = effect.isTermination := by
  cases effect <;> rfl

section Notified

variable {effect : RegEventEffect}

variable (h : Notified xml self frame wire now effect next)
include h

theorem Notified.documentOf_eq
    (hparse : Frame.parse wire = .ok frame) : documentOf xml wire = h.document := by
  rw [documentOf, hparse, (notifyContent_eq_ok h.content).2]
  rfl

/-- An accepted NOTIFY without a document leaves the snapshot. -/
theorem Notified.of_no_document
    (hnone : h.document = none) : next.snapshot = self.snapshot ∧ effect.isTermination = false := by
  have happlied := h.applied
  rw [hnone, applyDocument] at happlied
  refine ⟨by rw [h.recorded.2.2.1, hnone, applyDocument], ?_⟩
  have hreport : effect.isTermination = h.raw.isTermination :=
    (congrArg _ h.effect_eq).trans (withRetryAfter_isTermination _ _)
  rw [hreport, ← Except.ok.inj happlied]
  rfl

/-- What the document of an accepted NOTIFY does: it is applied if it follows, and a report needs
what `Revokes` asks for. -/
theorem Notified.of_document (hsome : h.document = some document) :
    next.snapshot.version = versionAfter self.snapshot.version document ∧
    (∀ ids, next.snapshot.own = some ids →
      document.Establishes self.binding ids ∨ self.snapshot.own = some ids) ∧
    (effect.isTermination = true → document.Follows self.snapshot.version ∧
      document.Revokes self.binding fun ids => self.snapshot.own = some ids) := by
  have happlied := h.applied
  have hbound : document.version ≤ u32Max := by
    have hcontent := (notifyContent_eq_ok h.content).2
    rw [hsome] at hcontent
    exact parseDocument_version_le (toOption_eq_some.1 hcontent.symm)
  have hreport : effect.isTermination = h.raw.isTermination :=
    (congrArg _ h.effect_eq).trans (withRetryAfter_isTermination _ _)
  rw [hsome, applyDocument] at happlied
  rw [h.recorded.2.2.1, hsome, applyDocument, hreport]
  rcases self.snapshot.apply_cases document self.binding with ⟨hsame, hquiet⟩ |
    ⟨hfollows, applied, nextOwn, houtcome, heffect, hnext⟩
  · obtain ⟨hterm, hstale⟩ := hquiet _ happlied
    rw [hsame]
    exact ⟨(versionAfter_of_not_follows (hstale hbound)).symm, fun ids hids => Or.inr hids,
      fun hreported => absurd hreported (by rw [hterm]; decide)⟩
  · obtain ⟨-, hrevokes, hown⟩ := Snapshot.outcome_ok houtcome
    rw [hnext]
    refine ⟨(if_pos hfollows).symm, hown, fun hreported => ⟨hfollows, hrevokes ?_⟩⟩
    rw [heffect] at happlied
    rw [← Except.ok.inj happlied] at hreported
    split at hreported
    · cases hreported
    · exact hreported

end Notified

/-! ## The invariant -/

variable {call : Call} {answer : Answer}

/-- What a call means for the record of accepted NOTIFY requests: nothing was accepted, the last
one was repeated, or a new one was accepted. -/
theorem Transition.heard (h : Transition xml self call answer next) :
    (acceptedNotify (call, answer) = none ∧ reportsTermination (call, answer) = false ∧
      next.snapshot = self.snapshot ∧ next.lastNotify = self.lastNotify) ∨
    (∃ wire cseq, acceptedNotify (call, answer) = some wire ∧
      reportsTermination (call, answer) = false ∧ self.lastNotify = some (cseq, wire) ∧
      next = self) ∨
    ∃ wire now frame effect, call = .onFrame wire now ∧ answer = .frame (.notify 200 effect) ∧
      Frame.parse wire = .ok frame ∧ Nonempty (Notified xml self frame wire now effect next) := by
  cases h with
  | built =>
    refine Or.inl ⟨rfl, rfl, ?_⟩
    rw [beginTransaction_eq]
    exact ⟨rfl, rfl⟩
  | refusedNotify hrefusal =>
    exact Or.inl ⟨acceptedNotify_refusal hrefusal _, rfl, rfl, rfl⟩
  | @repeatedNotify wire now cseq hlast =>
    exact Or.inr (Or.inl ⟨wire, cseq, rfl, rfl, hlast, rfl⟩)
  | @notified wire now frame effect _ hparse _ _ hn =>
    exact Or.inr (Or.inr ⟨wire, now, frame, effect, rfl, rfl, hparse, ⟨hn⟩⟩)
  | _ => exact Or.inl ⟨rfl, rfl, rfl, rfl⟩

/-- Once disabled, always disabled; a report finds the observer on and disables it. -/
theorem Transition.disabled (h : Transition xml self call answer next) :
    (self.disabled = true → next.disabled = true) ∧
      (reportsTermination (call, answer) = true → self.disabled = false ∧
        next.disabled = true) := by
  cases h with
  | built hmay =>
    refine ⟨fun hd => ?_, by rintro ⟨⟩⟩
    simp [mayBuild, hd] at hmay
  | @notified wire now frame effect _ _ _ _ hn =>
    have hon : self.disabled = false := by
      have hlisten := hn.listening
      simp only [listening, Bool.not_eq_true', Bool.or_eq_false_iff] at hlisten
      exact hlisten.1.1
    refine ⟨fun hd => absurd (hon.symm.trans hd) (by decide), fun hreport => ⟨hon, ?_⟩⟩
    obtain ⟨due, needFull, fullRequests, ⟨-, hquiet⟩ | hnext⟩ := hn.next_cases
    · rw [reportsTermination, hquiet] at hreport
      cases hreport
    · rw [hnext]
      rfl
  | _ => exact ⟨fun h => by first | exact h | rfl, by rintro ⟨⟩⟩

/-- What the snapshot remembers comes from the accepted documents, and a report has disabled the
observer. -/
structure RevocationInvariant (xml : XmlReader) (binding : RegEventBinding)
    (history : List (Call × Answer)) (sub : RegEventSubscription) : Prop where
  binding_eq : sub.binding = binding
  version : sub.snapshot.version = lastApplied (acceptedDocuments xml history)
  own : ∀ ids, sub.snapshot.own = some ids →
    ∃ earlier ∈ acceptedDocuments xml history, earlier.Establishes binding ids
  repeated : ∀ cseq wire document, sub.lastNotify = some (cseq, wire) →
    documentOf xml wire = some document → ¬ document.Follows sub.snapshot.version
  reports : history.countP reportsTermination ≤ sub.disabled.toNat

variable {binding : RegEventBinding} {start : ℕ} {callEntropy tagEntropy : Option Bytes}

theorem new_initial (h : new binding start callEntropy tagEntropy = .ok self) :
    self.binding = binding ∧ self.snapshot = {} ∧ self.lastNotify = none := by
  obtain ⟨callId, -, h⟩ := bind_eq_ok.1 h
  obtain ⟨localTag, -, h⟩ := bind_eq_ok.1 h
  cases h
  exact ⟨rfl, rfl, rfl⟩

variable {history : List (Call × Answer)}

theorem countP_concat_le (h : Transition xml self call answer next)
    (hreports : history.countP reportsTermination ≤ self.disabled.toNat) :
    (history ++ [(call, answer)]).countP reportsTermination ≤ next.disabled.toNat := by
  obtain ⟨hstays, hreport⟩ := h.disabled
  rw [countP_append, countP_singleton]
  split
  next hreported =>
    obtain ⟨hon, hoff⟩ := hreport hreported
    rw [hon] at hreports
    rw [hoff]
    exact Nat.succ_le_succ hreports
  next =>
    cases hdisabled : self.disabled with
    | true => rwa [hstays hdisabled, Nat.add_zero, ← hdisabled]
    | false =>
      rw [hdisabled] at hreports
      exact hreports.trans (Nat.zero_le _)

theorem RevocationInvariant.step (h : RevocationInvariant xml binding history self)
    (htrans : Transition xml self call answer next) :
    RevocationInvariant xml binding (history ++ [(call, answer)]) next := by
  have hbinding : next.binding = binding := htrans.dialog.1.trans h.binding_eq
  have hreports := countP_concat_le htrans h.reports
  rcases htrans.heard with ⟨haccepted, -, hsnapshot, hlast⟩ | ⟨wire, cseq, haccepted, -,
    hlast, rfl⟩ |
    ⟨wire, now, frame, effect, rfl, rfl, hparse, ⟨hn⟩⟩
  · have hdocuments := acceptedDocuments_concat xml history (call, answer)
    rw [haccepted, bind_none, toList_none, append_nil] at hdocuments
    refine ⟨hbinding, ?_, ?_, ?_, hreports⟩
    · rw [hsnapshot, hdocuments, h.version]
    · rw [hsnapshot, hdocuments]
      exact h.own
    · rw [hsnapshot, hlast]
      exact h.repeated
  · -- the last NOTIFY again: its document does not follow
    have hdocuments := acceptedDocuments_concat xml history (call, answer)
    rw [haccepted, bind_some] at hdocuments
    refine ⟨hbinding, ?_, ?_, h.repeated, hreports⟩
    · cases hdoc : documentOf xml wire with
      | none => rw [hdocuments, hdoc, toList_none, append_nil, h.version]
      | some document =>
        rw [hdocuments, hdoc, toList_some, lastApplied_concat, ← h.version,
          versionAfter_of_not_follows (h.repeated cseq wire document hlast hdoc)]
    · intro ids hids
      obtain ⟨earlier, hmem, hestablishes⟩ := h.own ids hids
      rw [hdocuments]
      exact ⟨earlier, mem_append_left _ hmem, hestablishes⟩
  · have hdocuments := acceptedDocuments_concat xml history
      (.onFrame wire now, .frame (.notify 200 effect))
    have haccepted : acceptedNotify (.onFrame wire now, .frame (.notify 200 effect)) = some wire :=
      rfl
    rw [haccepted, bind_some, hn.documentOf_eq hparse] at hdocuments
    have hlast := hn.recorded.1
    cases hdoc : hn.document with
    | none =>
      obtain ⟨hsnapshot, -⟩ := hn.of_no_document hdoc
      rw [hdoc, toList_none, append_nil] at hdocuments
      refine ⟨hbinding, by rw [hsnapshot, hdocuments, h.version], ?_, ?_, hreports⟩
      · rw [hsnapshot, hdocuments]
        exact h.own
      · intro cseq wire' document hlast' hdocument
        rw [hlast] at hlast'
        cases hlast'
        rw [hn.documentOf_eq hparse, hdoc] at hdocument
        cases hdocument
    | some document =>
      obtain ⟨hversion, hown, -⟩ := hn.of_document hdoc
      rw [hdoc, toList_some] at hdocuments
      refine ⟨hbinding,
        by rw [hversion, hdocuments, lastApplied_concat, h.version], ?_, ?_, hreports⟩
      · intro ids hids
        rw [hdocuments]
        rcases hown ids hids with hnow | hbefore
        · rw [h.binding_eq] at hnow
          exact ⟨document, by simp, hnow⟩
        · obtain ⟨earlier, hmem, hestablishes⟩ := h.own ids hbefore
          exact ⟨earlier, mem_append_left _ hmem, hestablishes⟩
      · intro cseq wire' document' hlast' hdocument
        rw [hlast] at hlast'
        cases hlast'
        rw [hn.documentOf_eq hparse, hdoc] at hdocument
        cases hdocument
        rw [hversion]
        exact not_follows_versionAfter _ _

theorem revocationInvariant_run (h : new binding start callEntropy tagEntropy = .ok self)
    (calls : List Call) :
    RevocationInvariant xml binding (Machine.trace (step xml) self calls)
      (Machine.run (step xml) self calls) := by
  obtain ⟨hbinding, hsnapshot, hlast⟩ := new_initial h
  have hinitial : RevocationInvariant xml binding [] self := by
    refine ⟨hbinding, by rw [hsnapshot]; rfl, ?_, ?_, Nat.zero_le _⟩
    · rw [hsnapshot]
      rintro ids ⟨⟩
    · rw [hlast]
      rintro cseq wire document ⟨⟩
  exact Machine.history_invariant (step xml) hinitial
    (fun _ _ call hinv => hinv.step (step_transition call)) calls

/-- **The end of a binding is reported at most once, and only on evidence.** In every run of calls
there is at most one report. When a frame is answered with a report after a run, the frame is an
accepted NOTIFY whose document follows the versions applied before and says that the binding ended,
where ids count as known if they are the recorded ones and an earlier accepted document established
them. -/
theorem bindingTerminated_evidence (xml : XmlReader) {binding : RegEventBinding} {start : ℕ}
    {callEntropy tagEntropy : Option Bytes} {initial : RegEventSubscription}
    (hnew : new binding start callEntropy tagEntropy = .ok initial) (calls : List Call) :
    let history := Machine.trace (step xml) initial calls
    let self := Machine.run (step xml) initial calls
    history.countP reportsTermination ≤ 1 ∧
    ∀ wire now status reason retryAfter,
      (onFrame xml wire now self).1 = .notify status (.bindingTerminated reason retryAfter) →
      status = 200 ∧ ∃ frame document, Frame.parse wire = .ok frame ∧
        parseDocument xml frame.body = .ok document ∧
        document.Follows (lastApplied (acceptedDocuments xml history)) ∧
        document.Revokes binding fun ids => self.snapshot.own = some ids ∧
          ∃ earlier ∈ acceptedDocuments xml history, earlier.Establishes binding ids := by
  intro history self
  have hinv : RevocationInvariant xml binding history self := revocationInvariant_run hnew calls
  refine ⟨hinv.reports.trans (Bool.toNat_le _), ?_⟩
  intro wire now status reason retryAfter hreport
  have htrans : Transition xml self (.onFrame wire now) _ _ := onFrame_transition
  rw [hreport] at htrans
  rcases htrans.heard with ⟨-, hquiet, -⟩ | ⟨-, -, -, hquiet, -⟩ |
    ⟨wire', now', frame, effect, hcall, hanswer, hparse, ⟨hn⟩⟩
  · cases hquiet
  · cases hquiet
  · cases hcall
    cases hanswer
    cases hdoc : hn.document with
    | none => cases (hn.of_no_document hdoc).2
    | some document =>
      obtain ⟨hfollows, hrevokes⟩ := (hn.of_document hdoc).2.2 rfl
      have hparsed : parseDocument xml frame.body = .ok document := by
        have hcontent := (notifyContent_eq_ok hn.content).2
        rw [hdoc] at hcontent
        exact toOption_eq_some.1 hcontent.symm
      rw [hinv.binding_eq] at hrevokes
      rw [hinv.version] at hfollows
      exact ⟨rfl, frame, document, hparse, hparsed, hfollows,
        hrevokes.mono fun ids hids => ⟨hids, hinv.own ids hids⟩⟩

/-! ## A sample run -/

/-- A document about one contact of `sampleBinding`. -/
def sampleReginfo (version contactState event : String) : Bytes :=
  ascii "<reginfo xmlns=\"urn:ietf:params:xml:ns:reginfo\" version=\"" ++ ascii version ++
  ascii "\" state=\"full\"><registration id=\"r\" aor=\"sip:a@h\" state=\"active\">" ++
  ascii "<contact id=\"c\" state=\"" ++ ascii contactState ++ ascii "\" event=\"" ++ ascii event ++
  ascii "\"><uri>sip:c@h</uri></contact></registration></reginfo>"

def sampleAttribute (key value : String) : Option XmlAttribute :=
  some { key := ascii key, value := ascii value, unescaped := some value.toList }

/-- The events of `sampleReginfo`. -/
def sampleEvents (version contactState event : String) : List (Option XmlEvent) :=
  [some (.start (ascii "reginfo") [sampleAttribute "xmlns" "urn:ietf:params:xml:ns:reginfo",
      sampleAttribute "version" version, sampleAttribute "state" "full"]),
    some (.start (ascii "registration") [sampleAttribute "id" "r", sampleAttribute "aor" "sip:a@h",
      sampleAttribute "state" "active"]),
    some (.start (ascii "contact") [sampleAttribute "id" "c", sampleAttribute "state" contactState,
      sampleAttribute "event" event]),
    some (.start (ascii "uri") []),
    some (.text (ascii "sip:c@h") (some "sip:c@h".toList)),
    some .endTag, some .endTag, some .endTag, some .endTag]

/-- The tokenizer on the documents of the samples. -/
def sampleXml : XmlReader := fun body =>
  if body = sampleReginfo "0" "terminated" "expired" then sampleEvents "0" "terminated" "expired"
  else if body = sampleReginfo "1" "active" "registered" then sampleEvents "1" "active" "registered"
  else if body = sampleReginfo "0" "active" "registered" then sampleEvents "0" "active" "registered"
  else []

/-- The first NOTIFY says that the contact of the binding expired. -/
theorem bindingTerminated_evidence_sample :
    let wire := sampleNotify "1" "active;expires=600" "227"
      (sampleReginfo "0" "terminated" "expired")
    ∃ frame document, Frame.parse wire = .ok frame ∧
      parseDocument sampleXml frame.body = .ok document ∧
      document.Revokes sampleBinding fun ids => (Machine.run (step sampleXml) sampleStart
        [.buildRequest (sampleArgs 600 0)]).snapshot.own = some ids := by
  intro wire
  have hreport : (onFrame sampleXml wire 5 (Machine.run (step sampleXml) sampleStart
      [.buildRequest (sampleArgs 600 0)])).1 =
        .notify 200 (.bindingTerminated .expired none) := by
    simp only [wire, sampleNotify, sampleReginfo, sampleId, ascii]
    repeat rw [String.toList_ofList]
    decide +kernel
  obtain ⟨-, hevidence⟩ := bindingTerminated_evidence sampleXml new_sampleStart
    [.buildRequest (sampleArgs 600 0)]
  obtain ⟨-, frame, document, hparse, hparsed, -, hrevokes⟩ := hevidence wire 5 _ _ _ hreport
  refine ⟨frame, document, hparse, hparsed, hrevokes.mono ?_⟩
  rintro ids ⟨hown, -⟩
  exact hown

end RegEventSubscription

end RegEvent

end SimMaster
