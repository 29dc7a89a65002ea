import SimMaster.Ussd

/-!
# USSD reservations

What the two tables of `Ussd` say together while requests are in flight. A modem has one start in
flight or one session. A reservation is always backed (`Backed`): by a start in flight, by a session
on the table, or by a request that has taken the session off the table and is about to give the
reservation back. The one exception are sessions that were ended before their start had bound them;
the start then binds a session that is gone.

A task is seen here through its `Profile`: what it holds in the tables or is going to change. Each
change of the tables is one lemma about the profile of the task that makes it and the profiles of
the others.
-/

namespace SimMaster

open Rust List

namespace Ussd

/-! ## Session ids -/

variable {m n : ℕ}

theorem digitChar_inj (hm : m < 16) (hn : n < 16) (h : m.digitChar = n.digitChar) : m = n := by
  have hall : ∀ m < 16, ∀ n < 16, Nat.digitChar m = Nat.digitChar n → m = n := by decide
  exact hall m hm n hn h

theorem hex_eq (n : ℕ) :
    hex n = if n < 16 then [n.digitChar] else hex (n / 16) ++ [(n % 16).digitChar] :=
  Nat.toDigits_eq_if (by decide)

theorem hex_inj (h : hex m = hex n) : m = n := by
  induction m using Nat.strong_induction_on generalizing n with
  | _ m ih =>
    rw [hex_eq m, hex_eq n] at h
    split_ifs at h with hm hn hn
    · exact digitChar_inj hm hn (cons.inj h).1
    · rw [← nil_append [m.digitChar]] at h
      exact absurd (append_inj' h rfl).1.symm Nat.toDigits_ne_nil
    · rw [← nil_append [n.digitChar]] at h
      exact absurd (append_inj' h rfl).1 Nat.toDigits_ne_nil
    · obtain ⟨hfront, hlast⟩ := append_inj' h rfl
      have hdiv := ih (m / 16) (by omega) hfront
      have hmod := digitChar_inj (Nat.mod_lt m (by decide)) (Nat.mod_lt n (by decide))
        (cons.inj hlast).1
      omega

theorem dash_notMem_hex (n : ℕ) : '-' ∉ hex n := by
  induction n using Nat.strong_induction_on with
  | _ n ih =>
    have hdigit : ∀ d < 16, '-' ≠ Nat.digitChar d := by decide
    rw [hex_eq]
    split_ifs with hn
    · rw [mem_singleton]
      exact hdigit n hn
    · rw [mem_append, mem_singleton, not_or]
      exact ⟨ih (n / 16) (by omega), hdigit _ (Nat.mod_lt n (by decide))⟩

theorem append_dash_inj {a b c d : Str} (ha : '-' ∉ a) (hc : '-' ∉ c)
    (h : a ++ '-' :: b = c ++ '-' :: d) : b = d := by
  induction a generalizing c with
  | nil =>
    cases c with
    | nil => exact (cons.inj h).2
    | cons x c => exact absurd ((cons.inj h).1 ▸ mem_cons_self) hc
  | cons x a ih =>
    cases c with
    | nil => exact absurd ((cons.inj h).1 ▸ mem_cons_self) ha
    | cons y c =>
      rw [mem_cons, not_or] at ha hc
      exact ih ha.2 hc.2 (cons.inj h).2

/-- Session ids of different sequence numbers are different. -/
theorem makeSessionId_inj {millis millis' : ℕ}
    (h : Tables.makeSessionId millis m = Tables.makeSessionId millis' n) : m = n := by
  unfold Tables.makeSessionId at h
  simp only [append_assoc] at h
  have htail := append_cancel_left h
  exact hex_inj (append_dash_inj (dash_notMem_hex millis) (dash_notMem_hex millis') htail)

/-- The id has been made. -/
def Issued (sequence : ℕ) (id : Str) : Prop :=
  ∃ millis n, n < sequence ∧ id = Tables.makeSessionId millis n

theorem not_issued_makeSessionId (millis sequence : ℕ) :
    ¬ Issued sequence (Tables.makeSessionId millis sequence) := by
  rintro ⟨millis', n, hlt, heq⟩
  have hn := makeSessionId_inj heq
  omega

/-! ## Profiles -/

/-- What a task holds in the tables or is going to change. -/
structure Profile where
  /-- The start in flight. -/
  start : Option Start
  /-- An id that has been made and is not on the table yet. -/
  fresh : Option Str
  /-- An id that is on the table and not bound yet. -/
  binding : Option Str
  /-- Sessions that have been taken off the table, whose reservations the task gives back. -/
  ends : List Expired
  /-- The session that a request found, with its id. -/
  found : Option (Str × UssdSession)

def Reap.ends : Reap → List Expired
  | sweeping => []
  | checking rest => rest
  | locking first rest => first :: rest
  | rechecking first rest => first :: rest
  | cancelling first rest => first :: rest
  | releasing first rest => first :: rest

def Task.profile : Task → Profile
  | starting start => ⟨some start, none, none, [], none⟩
  | releasingStart start _ => ⟨some start, none, none, [], none⟩
  | reaping reap (.insert start id _) => ⟨some start, some id, none, reap.ends, none⟩
  | reaping reap (.find _) => ⟨none, none, none, reap.ends, none⟩
  | inserting start id _ => ⟨some start, some id, none, [], none⟩
  | binding start id _ => ⟨some start, none, some id, [], none⟩
  | unbinding start id => ⟨some start, none, some id, [], none⟩
  | finding _ => ⟨none, none, none, [], none⟩
  | locking request session => ⟨none, none, none, [], some (request.sessionId, session)⟩
  | checking request session => ⟨none, none, none, [], some (request.sessionId, session)⟩
  | commanding request session => ⟨none, none, none, [], some (request.sessionId, session)⟩
  | touching request session _ => ⟨none, none, none, [], some (request.sessionId, session)⟩
  | removing request session _ => ⟨none, none, none, [], some (request.sessionId, session)⟩
  | releasing request session _ =>
    ⟨none, none, none, [⟨request.sessionId, session.modemPath, session.operation⟩],
      some (request.sessionId, session)⟩

/-- The session is the same but for its last activity. -/
structure SameDialog (session other : UssdSession) : Prop where
  lineId : session.lineId = other.lineId
  modemPath : session.modemPath = other.modemPath
  operation : session.operation = other.operation

/-- The start's own session. -/
def Start.Owns (start : Start) (session : UssdSession) : Prop :=
  start.modemPath = session.modemPath ∧ start.operation = session.operation

/-- The tables are as the task takes them to be. -/
structure Fits (t : Tables) (p : Profile) : Prop where
  reserved : ∀ start, p.start = some start →
    t.activeModems.lookup start.modemPath = some ⟨none, start.operation⟩
  pending : ∀ id start, p.binding = some id → p.start = some start →
    (∃ session, t.sessions.lookup id = some session ∧ start.Owns session) ∨ id ∈ t.endedUnbound
  ended : ∀ e ∈ p.ends, t.sessions.lookup e.id = none
  found : ∀ id session, p.found = some (id, session) →
    ∀ current, t.sessions.lookup id = some current → SameDialog current session

/-- Two tasks do not hold the same modem or the same new id. -/
structure Apart (p q : Profile) : Prop where
  starts : ∀ a b, p.start = some a → q.start = some b → a.modemPath ≠ b.modemPath
  fresh : ∀ id, p.fresh = some id → q.fresh ≠ some id

variable {q p : Profile}

theorem Apart.symm (h : Apart p q) : Apart q p where
  starts a b ha hb heq := h.starts b a hb ha heq.symm
  fresh id hq hp := h.fresh id hp hq

/-- The reservation of a modem has a reason. -/
inductive Backed (t : Tables) (ps : List Profile) (path : Str) : ActiveModem → Prop where
  /-- A start is in flight. -/
  | start {operation : ℕ} {p : Profile} {start : Start} (hp : p ∈ ps) (hstart :
      p.start = some start)
      (hpath : start.modemPath = path) : Backed t ps path ⟨none, operation⟩
  /-- The session is on the table. -/
  | session {id : Str} {session : UssdSession} (hsession : t.sessions.lookup id = some session)
      (hpath : session.modemPath = path) : Backed t ps path ⟨some id, session.operation⟩
  /-- A task gives the reservation back. -/
  | ending {id : Str} {operation : ℕ} {p : Profile} (hp : p ∈ ps)
      (he : ⟨id, path, operation⟩ ∈ p.ends) : Backed t ps path ⟨some id, operation⟩
  /-- The session was ended before it was bound. -/
  | unbound {id : Str} {operation : ℕ} (hid : id ∈ t.endedUnbound) :
      Backed t ps path ⟨some id, operation⟩

/-- The session on the table has its modem: bound, or held by its start. -/
inductive Kept (t : Tables) (ps : List Profile) (id : Str) (session : UssdSession) : Prop where
  | bound (h : t.activeModems.lookup session.modemPath = some ⟨some id, session.operation⟩)
  | binding {p : Profile} {start : Start} (hp : p ∈ ps) (hbinding : p.binding = some id)
      (hstart : p.start = some start) (howns : start.Owns session)

/-- The task does not know the id. -/
structure Profile.Avoids (p : Profile) (id : Str) : Prop where
  binding : p.binding ≠ some id
  ends : ∀ e ∈ p.ends, e.id ≠ id
  found : ∀ session, p.found ≠ some (id, session)

/-- The id has not been used, except that a task may have made it. -/
structure Unused (t : Tables) (ps : List Profile) (id : Str) : Prop where
  session : t.sessions.lookup id = none
  active : ∀ path operation, t.activeModems.lookup path ≠ some ⟨some id, operation⟩
  unbound : id ∉ t.endedUnbound
  tasks : ∀ p ∈ ps, p.Avoids id

/-- What holds in every state, of the tables and the tasks in flight. -/
structure Sound (t : Tables) (ps : List Profile) : Prop where
  fits : ∀ p ∈ ps, Fits t p
  apart : ps.Pairwise Apart
  backed : ∀ path entry, t.activeModems.lookup path = some entry → Backed t ps path entry
  kept : ∀ id session, t.sessions.lookup id = some session → Kept t ps id session
  fresh : ∀ p ∈ ps, ∀ id, p.fresh = some id → Unused t ps id
  issued : ∀ id, ¬ Issued t.nextSessionId id → Unused t ps id ∧ ∀ p ∈ ps, p.fresh ≠ some id

/-- The profile of a request that holds nothing. -/
def Profile.idle : Profile := ⟨none, none, none, [], none⟩

/-- The profile of a start that holds its modem only. -/
def Profile.ofStart (start : Start) : Profile := ⟨some start, none, none, [], none⟩

variable {t : Tables}

theorem Fits.of_plain (hreserved : ∀ start, p.start = some start →
      t.activeModems.lookup start.modemPath = some ⟨none, start.operation⟩)
    (hbinding : p.binding = none) (hends : p.ends = []) (hfound : p.found = none) : Fits t p where
  reserved := hreserved
  pending := by simp [hbinding]
  ended := by simp [hends]
  found := by simp [hfound]

variable {id : Str}

theorem Profile.Avoids.of_plain (hbinding : p.binding = none)
    (hends : p.ends = []) (hfound : p.found = none) : p.Avoids id where
  binding := by simp [hbinding]
  ends := by simp [hends]
  found := by simp [hfound]

theorem Unused.cons {ps : List Profile} {id : Str} (h : Unused t ps id)
    (hp : p.Avoids id) : Unused t (p :: ps) id :=
  { h with tasks := forall_mem_cons.mpr ⟨hp, h.tasks⟩ }

/-! ## The order of the tasks does not matter -/

variable {ps qs : List Profile} {path : Str} {entry : ActiveModem}

theorem Backed.mono
    (h : Backed t ps path entry) (hsub : ∀ p ∈ ps, p ∈ qs) : Backed t qs path entry := by
  cases h with
  | start hp hstart hpath => exact .start (hsub _ hp) hstart hpath
  | session hsession hpath => exact .session hsession hpath
  | ending hp he => exact .ending (hsub _ hp) he
  | unbound hid => exact .unbound hid

variable {session : UssdSession}

theorem Kept.mono (h : Kept t ps id session) (hsub : ∀ p ∈ ps, p ∈ qs) : Kept t qs id session := by
  cases h with
  | bound h => exact .bound h
  | binding hp hbinding hstart howns => exact .binding (hsub _ hp) hbinding hstart howns

variable {others : List Profile} {p p' : Profile} {t t' : Tables}

/-- The reason of a reservation when one task and the tables change: what the task and the sessions
stood for is handed on. -/
theorem Backed.carry (h : Backed t (p :: others) path entry)
    (hstart : ∀ start, p.start = some start → start.modemPath = path → p'.start = some start)
    (hsession : ∀ id session, t.sessions.lookup id = some session → session.modemPath = path →
      Backed t' (p' :: others) path ⟨some id, session.operation⟩)
    (hends : ∀ id operation, ⟨id, path, operation⟩ ∈ p.ends → entry = ⟨some id, operation⟩ →
      ⟨id, path, operation⟩ ∈ p'.ends)
    (hunbound : ∀ id ∈ t.endedUnbound, id ∈ t'.endedUnbound) :
    Backed t' (p' :: others) path entry := by
  cases h with
  | start hp hs hpath =>
    rcases mem_cons.mp hp with rfl | hp
    · exact .start mem_cons_self (hstart _ hs hpath) hpath
    · exact .start (mem_cons_of_mem _ hp) hs hpath
  | session h hpath => exact hsession _ _ h hpath
  | ending hp he =>
    rcases mem_cons.mp hp with rfl | hp
    · exact .ending mem_cons_self (hends _ _ he rfl)
    · exact .ending (mem_cons_of_mem _ hp) he
  | unbound hid => exact .unbound (hunbound _ hid)

theorem Kept.carry {before : UssdSession} (h : Kept t (p :: others) id before)
    (hbound : t.activeModems.lookup before.modemPath = some ⟨some id, before.operation⟩ →
      t'.activeModems.lookup session.modemPath = some ⟨some id, session.operation⟩)
    (hown : ∀ start, p.binding = some id → p.start = some start → start.Owns before →
      Kept t' (p' :: others) id session)
    (howns : ∀ start : Start, start.Owns before → start.Owns session) :
    Kept t' (p' :: others) id session := by
  cases h with
  | bound h => exact .bound (hbound h)
  | binding hp hb hs ho =>
    rcases mem_cons.mp hp with rfl | hp
    · exact hown _ hb hs ho
    · exact .binding (mem_cons_of_mem _ hp) hb hs (howns _ ho)

theorem Unused.anti (h : Unused t ps id) (hsub : ∀ p ∈ qs, p ∈ ps) : Unused t qs id :=
  { h with tasks := fun p hp => h.tasks p (hsub p hp) }

theorem Sound.perm (h : Sound t ps) (hperm : ps.Perm qs) : Sound t qs where
  fits p hp := h.fits p (hperm.mem_iff.mpr hp)
  apart := (hperm.pairwise_iff Apart.symm).mp h.apart
  backed path entry hentry :=
    (h.backed path entry hentry).mono fun _ => hperm.mem_iff.mp
  kept id session hsession := (h.kept id session hsession).mono fun _ => hperm.mem_iff.mp
  fresh p hp id hid := (h.fresh p (hperm.mem_iff.mpr hp) id hid).anti fun _ => hperm.mem_iff.mpr
  issued id hid := ⟨(h.issued id hid).1.anti fun _ => hperm.mem_iff.mpr,
    fun p hp => (h.issued id hid).2 p (hperm.mem_iff.mpr hp)⟩

namespace Sound

variable {t t' : Tables} {p p' : Profile} {others : List Profile}

section

variable (h : Sound t (p :: others))
include h

theorem apart_of_mem (hq : q ∈ others) : Apart p q :=
  (pairwise_cons.mp h.apart).1 q hq

/-- One task changes the tables and itself. -/
theorem change (hothers : ∀ q ∈ others, Fits t' q) (hnew : Fits t' p')
    (hstart : ∀ start, p'.start = some start → p.start = some start)
    (hfresh : ∀ id, p'.fresh = some id → p.fresh = some id)
    (hbacked : ∀ path entry, t'.activeModems.lookup path = some entry →
      Backed t' (p' :: others) path entry)
    (hkept : ∀ id session, t'.sessions.lookup id = some session → Kept t' (p' :: others) id session)
    (hunused : ∀ id, Unused t (p :: others) id → (p.fresh = some id → p'.fresh = some id) →
      Unused t' (p' :: others) id)
    (hnext : t'.nextSessionId = t.nextSessionId) : Sound t' (p' :: others) where
  fits q hq := by
    rcases mem_cons.mp hq with rfl | hq
    · exact hnew
    · exact hothers q hq
  apart := by
    refine pairwise_cons.mpr ⟨fun q hq => ?_, (pairwise_cons.mp h.apart).2⟩
    have hapart := h.apart_of_mem hq
    exact ⟨fun a b ha => hapart.starts a b (hstart a ha),
      fun id hid => hapart.fresh id (hfresh id hid)⟩
  backed := hbacked
  kept := hkept
  fresh q hq id hid := by
    rcases mem_cons.mp hq with rfl | hq
    · exact hunused id (h.fresh p mem_cons_self id (hfresh id hid)) fun _ => hid
    · exact hunused id (h.fresh q (mem_cons_of_mem _ hq) id hid) fun hp =>
        absurd hid ((h.apart_of_mem hq).fresh id hp)
  issued id hid := by
    rw [hnext] at hid
    obtain ⟨hunissued, hnone⟩ := h.issued id hid
    refine ⟨hunused id hunissued fun hp => absurd hp (hnone p mem_cons_self), fun q hq hfr => ?_⟩
    rcases mem_cons.mp hq with rfl | hq
    · exact hnone p mem_cons_self (hfresh id hfr)
    · exact hnone q (mem_cons_of_mem _ hq) hfr

/-- A task that goes on without a change of the tables, except that it may have found a session. -/
theorem relabel (hstart : p'.start = p.start)
    (hfresh : p'.fresh = p.fresh) (hbinding : p'.binding = p.binding) (hends : p'.ends = p.ends)
    (hfound : ∀ id session, p'.found = some (id, session) →
      p.found = some (id, session) ∨ t.sessions.lookup id = some session) :
    Sound t (p' :: others) := by
  have hfits := h.fits p mem_cons_self
  refine h.change (fun q hq => h.fits q (mem_cons_of_mem _ hq)) ?_
    (fun start hs => hstart.symm.trans hs) (fun id hid => hfresh.symm.trans hid)
    (fun path entry hentry => (h.backed path entry hentry).carry (fun _ hs _ => hstart.trans hs)
      (fun _ _ hheld hpath => .session hheld hpath) (fun _ _ he _ => hends ▸ he) fun _ hid =>
        hid) ?_ ?_ rfl
  · refine ⟨fun start hs => hfits.reserved start (hstart.symm.trans hs),
      fun id start hb hs => hfits.pending id start (hbinding.symm.trans hb) (hstart.symm.trans hs),
      fun e he => hfits.ended e (hends ▸ he), fun id session hf current hcurrent => ?_⟩
    rcases hfound id session hf with hold | hnow
    · exact hfits.found id session hold current hcurrent
    · rw [hnow] at hcurrent
      cases hcurrent
      exact ⟨rfl, rfl, rfl⟩
  · exact fun id session hsession => (h.kept id session hsession).carry (fun hbound => hbound)
      (fun _ hb hs => .binding mem_cons_self (hbinding.trans hb) (hstart.trans hs)) fun _ ho => ho
  · intro id hunused _
    refine { hunused with tasks := fun q hq => ?_ }
    rcases mem_cons.mp hq with rfl | hq
    · have havoids := hunused.tasks p mem_cons_self
      refine ⟨fun hb => havoids.binding (hbinding.symm.trans hb), fun e he =>
        havoids.ends e (hends ▸ he), fun session hf => ?_⟩
      rcases hfound id session hf with hold | hnow
      · exact havoids.found session hold
      · rw [hunused.session] at hnow
        cases hnow
    · exact hunused.tasks q (mem_cons_of_mem _ hq)

/-- A task that holds nothing leaves. -/
theorem leave (hstart : p.start = none) (hends : p.ends = []) : Sound t others where
  fits q hq := h.fits q (mem_cons_of_mem _ hq)
  apart := (pairwise_cons.mp h.apart).2
  backed path entry hentry := by
    cases h.backed path entry hentry with
    | start hp hs hpath =>
      rcases mem_cons.mp hp with rfl | hp
      · rw [hstart] at hs
        cases hs
      · exact .start hp hs hpath
    | session hsession hpath => exact .session hsession hpath
    | ending hp he =>
      rcases mem_cons.mp hp with rfl | hp
      · rw [hends] at he
        cases he
      · exact .ending hp he
    | unbound hid => exact .unbound hid
  kept id session hsession := by
    cases h.kept id session hsession with
    | bound hbound => exact .bound hbound
    | binding hp hb hs howns =>
      rcases mem_cons.mp hp with rfl | hp
      · rw [hstart] at hs
        cases hs
      · exact .binding hp hb hs howns
  fresh q hq id hid :=
    (h.fresh q (mem_cons_of_mem _ hq) id hid).anti fun _ => mem_cons_of_mem _
  issued id hid :=
    ⟨(h.issued id hid).1.anti fun _ => mem_cons_of_mem _,
      fun q hq => (h.issued id hid).2 q (mem_cons_of_mem _ hq)⟩

end

/-- A request comes that holds nothing. -/
theorem arrive (h : Sound t ps) : Sound t (Profile.idle :: ps) where
  fits q hq := by
    rcases mem_cons.mp hq with rfl | hq
    · exact Fits.of_plain (by simp [Profile.idle]) rfl rfl rfl
    · exact h.fits q hq
  apart := pairwise_cons.mpr
    ⟨fun _ _ => ⟨by simp [Profile.idle], by simp [Profile.idle]⟩, h.apart⟩
  backed path entry hentry := (h.backed path entry hentry).mono fun _ => mem_cons_of_mem _
  kept id session hsession := (h.kept id session hsession).mono fun _ => mem_cons_of_mem _
  fresh q hq id hid := by
    rcases mem_cons.mp hq with rfl | hq
    · cases hid
    · exact (h.fresh q hq id hid).cons (Profile.Avoids.of_plain rfl rfl rfl)
  issued id hid := by
    obtain ⟨hunused, hnone⟩ := h.issued id hid
    refine ⟨hunused.cons (Profile.Avoids.of_plain rfl rfl rfl), fun q hq => ?_⟩
    rcases mem_cons.mp hq with rfl | hq
    · simp [Profile.idle]
    · exact hnone q hq

/-! ## Starts -/

variable {operation : ℕ}

/-- A start reserves its modem. -/
theorem reserve (h : Sound t ps) {lineId code : Str}
    (hreserve : t.reserveModem path = some (operation, t')) :
    Sound t' ((Profile.ofStart ⟨lineId, path, code, operation⟩) :: ps) := by
  rw [Tables.reserveModem] at hreserve
  split_ifs at hreserve with hfree
  obtain ⟨rfl, rfl⟩ := Prod.mk.inj (Option.some.inj hreserve)
  have hnone : t.activeModems.lookup path = none := by simpa using hfree
  have hsame : ∀ {other}, other ≠ path →
      (t.activeModems.insert path ⟨none, t.nextOperation⟩).lookup other =
        t.activeModems.lookup other := fun hne => AList.lookup_insert_ne hne
  have hne : ∀ {other entry}, t.activeModems.lookup other = some entry → other ≠ path := by
    rintro other entry hentry rfl
    rw [hnone] at hentry
    cases hentry
  have hunused : ∀ id, Unused t ps id → Unused { t with
      activeModems := t.activeModems.insert path ⟨none, t.nextOperation⟩
      nextOperation := t.nextOperation + 1 }
      (Profile.ofStart ⟨lineId, path, code, t.nextOperation⟩ :: ps) id := by
    intro id hid
    refine Unused.cons { hid with active := fun other operation hentry => ?_ }
      (Profile.Avoids.of_plain rfl rfl rfl)
    by_cases hother : other = path
    · rw [hother] at hentry
      rw [AList.lookup_insert] at hentry
      cases hentry
    · exact hid.active other operation ((hsame hother).symm.trans hentry)
  refine ⟨?_, ?_, ?_, ?_, ?_, ?_⟩
  · intro q hq
    rcases mem_cons.mp hq with rfl | hq
    · refine Fits.of_plain (fun start hs => ?_) rfl rfl rfl
      cases hs
      exact AList.lookup_insert _
    · refine { h.fits q hq with reserved := fun start hs => ?_ }
      have hold := (h.fits q hq).reserved start hs
      exact (hsame (hne hold)).trans hold
  · refine pairwise_cons.mpr ⟨fun q hq => ⟨fun a b ha hb => ?_, by simp [Profile.ofStart]⟩,
      h.apart⟩
    cases ha
    exact (hne ((h.fits q hq).reserved b hb)).symm
  · intro other entry hentry
    by_cases hother : other = path
    · rw [hother] at hentry ⊢
      rw [AList.lookup_insert] at hentry
      cases hentry
      exact .start mem_cons_self rfl rfl
    · have hold := h.backed other entry ((hsame hother).symm.trans hentry)
      cases hold with
      | start hp hs hpath => exact .start (mem_cons_of_mem _ hp) hs hpath
      | session hsession hpath => exact .session hsession hpath
      | ending hp he => exact .ending (mem_cons_of_mem _ hp) he
      | unbound hid => exact .unbound hid
  · intro id session hsession
    cases h.kept id session hsession with
    | bound hbound => exact .bound ((hsame (hne hbound)).trans hbound)
    | binding hp hb hs howns => exact .binding (mem_cons_of_mem _ hp) hb hs howns
  · intro q hq id hid
    rcases mem_cons.mp hq with rfl | hq
    · cases hid
    · exact hunused id (h.fresh q hq id hid)
  · intro id hid
    obtain ⟨hold, hnone⟩ := h.issued id hid
    refine ⟨hunused id hold, fun q hq => ?_⟩
    rcases mem_cons.mp hq with rfl | hq
    · simp [Profile.ofStart]
    · exact hnone q hq

variable {start : Start}

section

variable (h : Sound t (p :: others))
include h

/-- A start leaves when the reservation of its modem has changed. -/
theorem settle {active : AList fun _ : Str => ActiveModem} (hstart : p.start = some start)
    (hends : p.ends = [])
    (hsame : ∀ path, path ≠ start.modemPath → active.lookup path = t.activeModems.lookup path)
    (hbacked : ∀ entry, active.lookup start.modemPath = some entry →
      Backed { t with activeModems := active } (Profile.idle :: others) start.modemPath entry)
    (hbound : ∀ id session, p.binding = some id → start.Owns session →
      active.lookup session.modemPath = some ⟨some id, session.operation⟩)
    (hbinding : ∀ id operation, active.lookup start.modemPath = some ⟨some id, operation⟩ →
      p.binding = some id) :
    Sound { t with activeModems := active } others := by
  have hreserved := (h.fits p mem_cons_self).reserved start hstart
  refine Sound.leave (p := Profile.idle) ?_ rfl rfl
  refine h.change (fun q hq => ?_) (Fits.of_plain (by simp [Profile.idle]) rfl rfl rfl)
    (by simp [Profile.idle]) (by simp [Profile.idle]) ?_ ?_ ?_ rfl
  · refine { h.fits q (mem_cons_of_mem _ hq) with reserved := fun other hother => ?_ }
    have hne := (h.apart_of_mem hq).starts start other hstart hother
    exact (hsame _ hne.symm).trans ((h.fits q (mem_cons_of_mem _ hq)).reserved other hother)
  · intro path entry hentry
    by_cases hpath : path = start.modemPath
    · rw [hpath] at hentry ⊢
      exact hbacked entry hentry
    · refine (h.backed path entry ((hsame path hpath).symm.trans hentry)).carry
        (fun other hs hmodem => ?_)
        (fun _ _ hheld hpath => .session hheld hpath) (fun _ _ he => by rw [hends] at he; cases he)
          fun _ hid => hid
      cases hstart.symm.trans hs
      exact absurd hmodem.symm hpath
  · intro id session hsession
    refine (h.kept id session hsession).carry (fun hold => (hsame _ fun heq => ?_).trans hold)
      (fun other hb hs howns => .bound ?_) fun _ ho => ho
    · rw [heq, hreserved] at hold
      cases hold
    · cases hstart.symm.trans hs
      exact hbound id session hb howns
  · intro id hid _
    refine Unused.cons ⟨hid.session, fun path operation hentry => ?_, hid.unbound,
      fun q hq => hid.tasks q (mem_cons_of_mem _ hq)⟩ (Profile.Avoids.of_plain rfl rfl rfl)
    by_cases hpath : path = start.modemPath
    · exact (hid.tasks p mem_cons_self).binding (hbinding id operation (hpath ▸ hentry))
    · exact hid.active path operation ((hsame path hpath).symm.trans hentry)

/-- A start that ended without a session gives its modem back. -/
theorem releaseStart (hstart : p.start = some start)
    (hbinding : p.binding = none) (hends : p.ends = []) :
    Sound (t.releaseStart start.modemPath) others := by
  have hgone : (t.activeModems.erase start.modemPath).lookup start.modemPath = none :=
    AList.lookup_erase _ _
  rw [Tables.releaseStart, (h.fits p mem_cons_self).reserved start hstart]
  exact h.settle hstart hends (fun _ => AList.lookup_erase_ne)
    (fun _ hentry => by cases hgone.symm.trans hentry)
      (fun _ _ hb => by cases hbinding.symm.trans hb)
    fun _ _ hentry => by cases hgone.symm.trans hentry

/-- A start makes the id of its session. -/
theorem issue (millis : ℕ) (hends : p.ends = []) (hbinding : p.binding = none)
    (hfound : p.found = none) :
    Sound { t with nextSessionId := t.nextSessionId + 1 }
      ({ p with fresh := some (Tables.makeSessionId millis t.nextSessionId) } :: others) := by
  have hnew := h.issued _ (not_issued_makeSessionId millis t.nextSessionId)
  have hplain : ∀ id, ({ p with fresh := some (Tables.makeSessionId millis t.nextSessionId) } :
      Profile).Avoids id := fun id => Profile.Avoids.of_plain hbinding hends hfound
  have hunused : ∀ id, Unused t (p :: others) id →
      Unused { t with nextSessionId := t.nextSessionId + 1 }
        ({ p with fresh := some (Tables.makeSessionId millis t.nextSessionId) } :: others) id :=
    fun id hid => Unused.cons ⟨hid.session, hid.active, hid.unbound,
      fun q hq => hid.tasks q (mem_cons_of_mem _ hq)⟩ (hplain id)
  refine ⟨fun q hq => ?_, ?_, fun path entry hentry => ?_, fun id session hsession => ?_,
    fun q hq id hid => ?_, fun id hid => ?_⟩
  · rcases mem_cons.mp hq with rfl | hq
    · exact { h.fits p mem_cons_self with }
    · exact { h.fits q (mem_cons_of_mem _ hq) with }
  · refine pairwise_cons.mpr ⟨fun q hq => ⟨(h.apart_of_mem hq).starts, fun id hid => ?_⟩,
      (pairwise_cons.mp h.apart).2⟩
    cases hid
    exact hnew.2 q (mem_cons_of_mem _ hq)
  · exact (h.backed path entry hentry).carry (fun _ hs _ => hs) (fun _ _ hheld hpath =>
      .session hheld hpath)
      (fun _ _ he _ => he) fun _ hid => hid
  · exact (h.kept id session hsession).carry (fun hbound => hbound)
      (fun _ hb hs => .binding mem_cons_self hb hs) fun _ ho => ho
  · rcases mem_cons.mp hq with rfl | hq
    · cases hid
      exact hunused _ hnew.1
    · exact hunused id (h.fresh q (mem_cons_of_mem _ hq) id hid)
  · have hold : ¬ Issued t.nextSessionId id := by
      rintro ⟨m, n, hlt, heq⟩
      exact hid ⟨m, n, Nat.lt_succ_of_lt hlt, heq⟩
    refine ⟨hunused id (h.issued id hold).1, fun q hq => ?_⟩
    rcases mem_cons.mp hq with rfl | hq
    · intro heq
      cases heq
      exact hid ⟨millis, t.nextSessionId, Nat.lt_succ_self _, rfl⟩
    · exact (h.issued id hold).2 q (mem_cons_of_mem _ hq)

/-- A start puts its session on the table. -/
theorem insert
    (hstart : p.start = some start) (hfresh : p.fresh = some id) (howns : start.Owns session)
    (hbinding : p.binding = none) (hends : p.ends = []) (hfound : p.found = none) :
    Sound (t.insertSession id session)
      ({ p with fresh := none, binding := some id } :: others) := by
  have hnew := h.fresh p mem_cons_self id hfresh
  have hself : (t.sessions.insert id session).lookup id = some session := AList.lookup_insert _
  have hsame : ∀ {other}, other ≠ id →
      (t.sessions.insert id session).lookup other = t.sessions.lookup other :=
    fun hne => AList.lookup_insert_ne hne
  refine h.change (fun q hq => ?_) ?_ (fun _ hs => hs) (by simp) ?_ ?_ ?_ rfl
  · have hfits := h.fits q (mem_cons_of_mem _ hq)
    have havoids := hnew.tasks q (mem_cons_of_mem _ hq)
    refine ⟨hfits.reserved, fun other start' hb hs => ?_, fun e he => ?_,
      fun other session' hf current hcurrent => ?_⟩
    · have hne : other ≠ id := fun heq => havoids.binding (heq ▸ hb)
      rw [Tables.insertSession]
      rw [hsame hne]
      exact hfits.pending other start' hb hs
    · exact (hsame (havoids.ends e he)).trans (hfits.ended e he)
    · have hne : other ≠ id := fun heq => havoids.found session' (heq ▸ hf)
      exact hfits.found other session' hf current ((hsame hne).symm.trans hcurrent)
  · have hfits := h.fits p mem_cons_self
    refine ⟨hfits.reserved, fun other start' hb hs => ?_, by simp [hends], by simp [hfound]⟩
    cases hb
    rw [hstart] at hs
    cases hs
    exact .inl ⟨session, hself, howns⟩
  · intro path entry hentry
    refine (h.backed path entry hentry).carry (fun _ hs _ => hs) (fun other old hold hpath => ?_)
      (fun _ _ he _ => he) fun _ hid => hid
    refine .session ((hsame fun heq => ?_).trans hold) hpath
    rw [heq, hnew.session] at hold
    cases hold
  · intro other old hold
    by_cases hother : other = id
    · subst hother
      cases hself.symm.trans hold
      exact .binding mem_cons_self rfl hstart howns
    · exact (h.kept other old ((hsame hother).symm.trans hold)).carry (fun hbound => hbound)
        (fun _ hb => by cases hbinding.symm.trans hb) fun _ ho => ho
  · intro other hother himp
    have hne : other ≠ id := by
      rintro rfl
      exact absurd (himp hfresh) (by simp)
    refine Unused.cons ⟨(hsame hne).trans hother.session, hother.active, hother.unbound,
      fun q hq => hother.tasks q (mem_cons_of_mem _ hq)⟩ ?_
    exact ⟨by simpa using hne.symm, by simp [hends], by simp [hfound]⟩

/-- A start binds its session. -/
theorem bind
    (hstart : p.start = some start) (hbinding : p.binding = some id) (hends : p.ends = []) :
    ∃ t', t.bindSession start.modemPath id start.operation = some t' ∧ Sound t' others := by
  have hfits := h.fits p mem_cons_self
  have hself : (t.activeModems.insert start.modemPath
      { sessionId := some id, operation := start.operation }).lookup start.modemPath =
        some ⟨some id, start.operation⟩ := AList.lookup_insert _
  refine ⟨_, by rw [Tables.bindSession, hfits.reserved start hstart]; exact if_pos rfl,
    h.settle hstart hends (fun _ => AList.lookup_insert_ne) (fun entry hentry => ?_)
      (fun other session hb howns => ?_) fun other operation hentry => ?_⟩
  · cases hself.symm.trans hentry
    rcases hfits.pending id start hbinding hstart with ⟨session, hsession, howns⟩ | hid
    · rw [howns.2]
      exact .session hsession howns.1.symm
    · exact .unbound hid
  · cases hbinding.symm.trans hb
    rw [← howns.1, ← howns.2]
    exact hself
  · cases hself.symm.trans hentry
    exact hbinding

end

/-! ## Ends -/

variable {now : Instant}

theorem lookup_sweep : (t.sweep now).sessions.lookup id = some session ↔
      t.sessions.lookup id = some session ∧ Tables.hasExpired now session = false := by
  rw [Tables.sweep, HashMap.lookup_retain, Option.filter_eq_some_iff, Bool.not_eq_true']

variable {e : Expired}

theorem mem_expired : e ∈ t.expired now ↔ ∃ session, t.sessions.lookup e.id = some session ∧
      Tables.hasExpired now session = true ∧ session.modemPath = e.modemPath ∧
      session.operation = e.operation := by
  rw [Tables.expired, mem_map]
  constructor
  · rintro ⟨⟨id, session⟩, hentry, rfl⟩
    obtain ⟨hmem, hexpired⟩ := mem_filter.mp hentry
    exact ⟨session, AList.mem_lookup_iff.mpr hmem, hexpired, rfl, rfl⟩
  · rintro ⟨session, hlookup, hexpired, hpath, hoperation⟩
    refine ⟨⟨e.id, session⟩, mem_filter.mpr ⟨AList.mem_lookup_iff.mp hlookup, hexpired⟩, ?_⟩
    rw [hpath, hoperation]

/-- A session that is taken off the table is gone, and was on it. -/
theorem lookup_of_expired (he : e ∈ t.expired now) :
    (t.sweep now).sessions.lookup e.id = none ∧ t.sessions.lookup e.id ≠ none := by
  obtain ⟨session, hlookup, hexpired, -⟩ := mem_expired.mp he
  refine ⟨?_, by rw [hlookup]; exact Option.some_ne_none _⟩
  rw [Option.eq_none_iff_forall_ne_some]
  intro other hother
  obtain ⟨hold, hkept⟩ := lookup_sweep.mp hother
  cases hlookup.symm.trans hold
  rw [hexpired] at hkept
  cases hkept

theorem mem_noteEnded {ended : List (Str × Str)} : id ∈ t.noteEnded ended ↔ id ∈ t.endedUnbound ∨
      ∃ path, (id, path) ∈ ended ∧ t.boundTo path id = false := by
  simp [Tables.noteEnded]

/-- The modem of a start in flight is not reserved by a session. -/
theorem not_boundTo
    (h : t.activeModems.lookup path = some ⟨none, operation⟩) : t.boundTo path id = false := by
  simp [Tables.boundTo, h]

/-- The expired sessions are taken off the table. -/
theorem sweep (h : Sound t (p :: others)) (now : Instant) (hends : p.ends = [])
    (hbinding : p.binding = none) (hfound : p.found = none) :
    Sound (t.sweep now) ({ p with ends := t.expired now } :: others) := by
  have hnone : ∀ {id}, t.sessions.lookup id = none → (t.sweep now).sessions.lookup id = none := by
    intro id hid
    rw [Option.eq_none_iff_forall_ne_some]
    intro session hsession
    cases hid.symm.trans (lookup_sweep.mp hsession).1
  have hsome : ∀ id session, t.sessions.lookup id = some session →
      (t.sweep now).sessions.lookup id = some session ∨
        ⟨id, session.modemPath, session.operation⟩ ∈ t.expired now := by
    intro id session hsession
    cases hexpired : Tables.hasExpired now session with
    | true => exact .inr (mem_expired.mpr ⟨session, hsession, hexpired, rfl, rfl⟩)
    | false => exact .inl (lookup_sweep.mpr ⟨hsession, hexpired⟩)
  have hnoted : ∀ {id}, id ∈ t.endedUnbound → id ∈ (t.sweep now).endedUnbound := fun hid =>
    mem_noteEnded.mpr (.inl hid)
  refine h.change (fun q hq => ?_) ?_ (fun _ hs => hs) (fun _ hid => hid) ?_ ?_ ?_ rfl
  · have hfits := h.fits q (mem_cons_of_mem _ hq)
    refine ⟨hfits.reserved, fun id start hb hs => ?_, fun e he => hnone (hfits.ended e he),
      fun id session hf current hcurrent => hfits.found id session hf current
        (lookup_sweep.mp hcurrent).1⟩
    rcases hfits.pending id start hb hs with ⟨session, hsession, howns⟩ | hid
    · rcases hsome id session hsession with hkept | hgone
      · exact .inl ⟨session, hkept, howns⟩
      · refine .inr (mem_noteEnded.mpr (.inr ⟨session.modemPath, mem_map.mpr ⟨_, hgone, rfl⟩, ?_⟩))
        have hreserved := hfits.reserved start hs
        rw [howns.1] at hreserved
        exact not_boundTo hreserved
    · exact .inr (hnoted hid)
  · have hfits := h.fits p mem_cons_self
    exact ⟨hfits.reserved, by simp [hbinding], fun e he => (lookup_of_expired he).1,
      by simp [hfound]⟩
  · intro path entry hentry
    refine (h.backed path entry hentry).carry (fun _ hs _ => hs) (fun id session hsession hpath =>
      ?_)
      (fun _ _ he => by rw [hends] at he; cases he) fun _ hid => hnoted hid
    rcases hsome id session hsession with hkept | hgone
    · exact .session hkept hpath
    · rw [hpath] at hgone
      exact .ending mem_cons_self hgone
  · exact fun id session hsession => (h.kept id session (lookup_sweep.mp hsession).1).carry
      (fun hbound => hbound) (fun _ hb hs => .binding mem_cons_self hb hs) fun _ ho => ho
  · intro id hid _
    have havoids := hid.tasks p mem_cons_self
    have hnot : ∀ e ∈ t.expired now, e.id ≠ id := by
      rintro e he rfl
      exact (lookup_of_expired he).2 hid.session
    refine Unused.cons ⟨hnone hid.session, hid.active, fun hmem => ?_,
      fun q hq => hid.tasks q (mem_cons_of_mem _ hq)⟩ ⟨havoids.binding, hnot, havoids.found⟩
    rcases mem_noteEnded.mp hmem with hold | ⟨path, hnew, -⟩
    · exact hid.unbound hold
    · obtain ⟨e, he, heq⟩ := mem_map.mp hnew
      exact hnot e he (congrArg Prod.fst heq)

variable {rest : List Expired}

/-- A task has one reservation less to give back: no modem has it. -/
theorem dropEnd (h : Sound t (p :: others)) (hends : p.ends = e :: rest)
    (hfree : t.activeModems.lookup e.modemPath ≠ some ⟨some e.id, e.operation⟩) :
    Sound t ({ p with ends := rest } :: others) := by
  have hrest : ∀ x ∈ rest, x ∈ p.ends := fun x hx => hends ▸ mem_cons_of_mem _ hx
  have hfits := h.fits p mem_cons_self
  refine h.change (fun q hq => h.fits q (mem_cons_of_mem _ hq))
    { hfits with ended := fun x hx => hfits.ended x (hrest x hx) } (fun _ hs => hs)
    (fun _ hid => hid) ?_ ?_ ?_ rfl
  · intro path entry hentry
    refine (h.backed path entry hentry).carry (fun _ hs _ => hs) (fun _ _ hheld hpath =>
      .session hheld hpath)
      (fun id operation he heq => ?_) fun _ hid => hid
    rw [hends] at he
    rcases mem_cons.mp he with rfl | he
    · exact absurd (heq ▸ hentry) hfree
    · exact he
  · exact fun id session hsession => (h.kept id session hsession).carry (fun hbound => hbound)
      (fun _ hb hs => .binding mem_cons_self hb hs) fun _ ho => ho
  · intro id hid _
    have havoids := hid.tasks p mem_cons_self
    exact Unused.cons ⟨hid.session, hid.active, hid.unbound,
      fun q hq => hid.tasks q (mem_cons_of_mem _ hq)⟩
      { havoids with ends := fun x hx => havoids.ends x (hrest x hx) }

/-- A modem that is not reserved any more by the session that a task wanted to end. -/
theorem skip (h : Sound t (p :: others))
    (hends : p.ends = e :: rest) (hfree : t.stillReserved e = false) :
    Sound t ({ p with ends := rest } :: others) := by
  refine h.dropEnd hends fun hlookup => ?_
  rw [Tables.stillReserved, hlookup] at hfree
  simp at hfree

theorem boundTo_iff : t.boundTo path id = true ↔
    ∃ operation, t.activeModems.lookup path = some ⟨some id, operation⟩ := by
  rw [Tables.boundTo]
  cases t.activeModems.lookup path with
  | none => simp
  | some entry =>
    obtain ⟨sessionId, operation⟩ := entry
    simp

variable (h : Sound t (p :: others))
include h

/-- The reservation of a session that is off the table is given back. -/
theorem unreserve (hgone : t.sessions.lookup id = none) :
    Sound (t.releaseSession path id) (p :: others) := by
  rw [Tables.releaseSession]
  split_ifs with hbound
  case neg => exact h
  obtain ⟨operation, hlookup⟩ := boundTo_iff.mp hbound
  have hsame : ∀ {other}, other ≠ path →
      (t.activeModems.erase path).lookup other = t.activeModems.lookup other :=
    fun hne => AList.lookup_erase_ne hne
  have herased : (t.activeModems.erase path).lookup path = none := AList.lookup_erase _ _
  have hcarry : ∀ {other entry}, (t.activeModems.erase path).lookup other = some entry →
      t.activeModems.lookup other = some entry := by
    intro other entry hentry
    by_cases hother : other = path
    · rw [hother] at hentry
      cases herased.symm.trans hentry
    · exact (hsame hother).symm.trans hentry
  have hfits : ∀ q ∈ p :: others, Fits { t with activeModems := t.activeModems.erase path } q := by
    intro q hq
    refine { h.fits q hq with reserved := fun start hs => ?_ }
    have hreserved := (h.fits q hq).reserved start hs
    refine (hsame fun heq => ?_).trans hreserved
    rw [heq, hlookup] at hreserved
    cases hreserved
  refine h.change (fun q hq => hfits q (mem_cons_of_mem _ hq)) (hfits p mem_cons_self)
    (fun _ hs => hs) (fun _ hid => hid) ?_ ?_ ?_ rfl
  · intro other entry hentry
    cases h.backed other entry (hcarry hentry) with
    | start hp hs hpath => exact .start hp hs hpath
    | session hsession hpath => exact .session hsession hpath
    | ending hp he => exact .ending hp he
    | unbound hid => exact .unbound hid
  · intro other session hsession
    cases h.kept other session hsession with
    | bound hbound =>
      refine .bound ((hsame fun heq => ?_).trans hbound)
      rw [heq, hlookup] at hbound
      cases hbound
      cases hgone.symm.trans hsession
    | binding hp hb hs howns => exact .binding hp hb hs howns
  · intro other hother _
    exact ⟨hother.session, fun path operation hentry =>
      hother.active path operation (hcarry hentry),
      hother.unbound, hother.tasks⟩

/-- A task gives back the modem of a session. -/
theorem releaseSession (hends : p.ends = e :: rest) :
    Sound (t.releaseSession e.modemPath e.id) ({ p with ends := rest } :: others) := by
  have hgone := (h.fits p mem_cons_self).ended e (by rw [hends]; exact mem_cons_self)
  refine (h.unreserve hgone).dropEnd hends fun hlookup => ?_
  rw [Tables.releaseSession] at hlookup
  split_ifs at hlookup with hbound
  · dsimp only at hlookup
    rw [AList.lookup_erase] at hlookup
    cases hlookup
  · exact hbound (boundTo_iff.mpr ⟨_, hlookup⟩)

/-- A request uses its session. -/
theorem touch (htouch : t.touchSession now id session = some t') : Sound t' (p :: others) := by
  rw [Tables.touchSession] at htouch
  cases hcurrent : t.sessions.lookup id with
  | none => rw [hcurrent] at htouch; cases htouch
  | some current =>
    rw [hcurrent] at htouch
    dsimp only at htouch
    split_ifs at htouch
    cases htouch
    generalize hnew : { current with lastActivityAt := now } = new
    have hsame : SameDialog current new := by
      rw [← hnew]
      exact ⟨rfl, rfl, rfl⟩
    have hself : (t.sessions.insert id new).lookup id = some new := AList.lookup_insert _
    -- a session is on the table as before, or it is the one that was used
    have hback : ∀ {other after}, (t.sessions.insert id new).lookup other = some after →
        ∃ before, t.sessions.lookup other = some before ∧ SameDialog before after := by
      intro other after hafter
      by_cases hother : other = id
      · subst hother
        cases hself.symm.trans hafter
        exact ⟨current, hcurrent, hsame⟩
      · rw [AList.lookup_insert_ne hother] at hafter
        exact ⟨after, hafter, rfl, rfl, rfl⟩
    have hforth : ∀ {other before}, t.sessions.lookup other = some before →
        ∃ after, (t.sessions.insert id new).lookup other = some after ∧
        SameDialog before after := by
      intro other before hbefore
      by_cases hother : other = id
      · subst hother
        cases hcurrent.symm.trans hbefore
        exact ⟨new, hself, hsame⟩
      · exact ⟨before, by rwa [AList.lookup_insert_ne hother], rfl, rfl, rfl⟩
    have hnone : ∀ {other}, t.sessions.lookup other = none →
        (t.sessions.insert id new).lookup other = none := by
      intro other hother
      rw [Option.eq_none_iff_forall_ne_some]
      intro after hafter
      obtain ⟨before, hbefore, -⟩ := hback hafter
      cases hother.symm.trans hbefore
    have hfits : ∀ q ∈ p :: others, Fits { t with sessions := t.sessions.insert id new } q := by
      intro q hq
      have hfits := h.fits q hq
      refine ⟨hfits.reserved, fun other start hb hs => ?_, fun e he => hnone (hfits.ended e he),
        fun other found hf after hafter => ?_⟩
      · rcases hfits.pending other start hb hs with ⟨before, hbefore, howns⟩ | hid
        · obtain ⟨after, hafter, hdialog⟩ := hforth hbefore
          exact .inl ⟨after, hafter, howns.1.trans hdialog.modemPath,
            howns.2.trans hdialog.operation⟩
        · exact .inr hid
      · obtain ⟨before, hbefore, hdialog⟩ := hback hafter
        have hold := hfits.found other found hf before hbefore
        exact ⟨hdialog.lineId.symm.trans hold.lineId, hdialog.modemPath.symm.trans hold.modemPath,
          hdialog.operation.symm.trans hold.operation⟩
    refine h.change (fun q hq => hfits q (mem_cons_of_mem _ hq)) (hfits p mem_cons_self)
      (fun _ hs => hs) (fun _ hid => hid) ?_ ?_ ?_ rfl
    · intro path entry hentry
      cases h.backed path entry hentry with
      | start hp hs hpath => exact .start hp hs hpath
      | session hsession hpath =>
        obtain ⟨after, hafter, hdialog⟩ := hforth hsession
        rw [hdialog.operation]
        exact .session hafter (hdialog.modemPath.symm.trans hpath)
      | ending hp he => exact .ending hp he
      | unbound hid => exact .unbound hid
    · intro other after hafter
      obtain ⟨before, hbefore, hdialog⟩ := hback hafter
      cases h.kept other before hbefore with
      | bound hbound =>
        rw [hdialog.modemPath, hdialog.operation] at hbound
        exact .bound hbound
      | binding hp hb hs howns =>
        exact .binding hp hb hs ⟨howns.1.trans hdialog.modemPath, howns.2.trans hdialog.operation⟩
    · intro other hother _
      exact ⟨hnone hother.session, hother.active, hother.unbound, hother.tasks⟩

/-- A request takes its session off the table. -/
theorem remove
    (hfound : p.found = some (id, session)) (hends : p.ends = []) (hstart : p.start = none)
    (hremove : t.removeSession id session = some t') :
    Sound t' ({ p with ends := [⟨id, session.modemPath, session.operation⟩] } :: others) := by
  have hfitsp := h.fits p mem_cons_self
  rw [Tables.removeSession] at hremove
  cases hcurrent : t.sessions.lookup id with
  | none => rw [hcurrent] at hremove; cases hremove
  | some current =>
    rw [hcurrent] at hremove
    dsimp only at hremove
    split_ifs at hremove
    cases hremove
    have hdialog := hfitsp.found id session hfound current hcurrent
    have hself : (t.sessions.erase id).lookup id = none := AList.lookup_erase _ _
    have hback : ∀ {other kept}, (t.sessions.erase id).lookup other = some kept →
        other ≠ id ∧ t.sessions.lookup other = some kept := by
      intro other kept hkept
      by_cases hother : other = id
      · subst hother
        cases hself.symm.trans hkept
      · rw [AList.lookup_erase_ne hother] at hkept
        exact ⟨hother, hkept⟩
    have hforth : ∀ {other before}, other ≠ id → t.sessions.lookup other = some before →
        (t.sessions.erase id).lookup other = some before := by
      intro other before hother hbefore
      rwa [AList.lookup_erase_ne hother]
    have hnone : ∀ {other}, t.sessions.lookup other = none →
        (t.sessions.erase id).lookup other = none := by
      intro other hother
      rw [Option.eq_none_iff_forall_ne_some]
      intro kept hkept
      cases hother.symm.trans (hback hkept).2
    have hnoted : ∀ {other}, other ∈ t.endedUnbound →
        other ∈ t.noteEnded [(id, session.modemPath)] := fun hmem => mem_noteEnded.mpr (.inl hmem)
    refine h.change (fun q hq => ?_) ?_ (fun _ hs => hs) (fun _ hid => hid) ?_ ?_ ?_ rfl
    · have hfits := h.fits q (mem_cons_of_mem _ hq)
      refine ⟨hfits.reserved, fun other start hb hs => ?_, fun e he => hnone (hfits.ended e he),
        fun other found hf kept hkept => hfits.found other found hf kept (hback hkept).2⟩
      rcases hfits.pending other start hb hs with ⟨before, hbefore, howns⟩ | hmem
      · by_cases hother : other = id
        · subst hother
          cases hcurrent.symm.trans hbefore
          refine .inr (mem_noteEnded.mpr (.inr ⟨session.modemPath, mem_singleton_self _, ?_⟩))
          have hreserved := hfits.reserved start hs
          rw [howns.1, hdialog.modemPath] at hreserved
          exact not_boundTo hreserved
        · exact .inl ⟨before, hforth hother hbefore, howns⟩
      · exact .inr (hnoted hmem)
    · refine ⟨hfitsp.reserved, by simp [hstart], fun e he => ?_,
        fun other found hf kept hkept => hfitsp.found other found hf kept (hback hkept).2⟩
      rw [mem_singleton.mp he]
      exact hself
    · intro path entry hentry
      refine (h.backed path entry hentry).carry (fun _ hs _ =>
        hs) (fun other before hbefore hpath => ?_)
        (fun _ _ he => by rw [hends] at he; cases he) fun _ hid => hnoted hid
      by_cases hother : other = id
      · subst hother
        cases hcurrent.symm.trans hbefore
        refine .ending mem_cons_self (mem_singleton.mpr ?_)
        rw [← hpath, hdialog.modemPath, hdialog.operation]
      · exact .session (hforth hother hbefore) hpath
    · exact fun other kept hkept => (h.kept other kept (hback hkept).2).carry (fun hbound => hbound)
        (fun _ hb hs => .binding mem_cons_self hb hs) fun _ ho => ho
    · intro other hother _
      have havoids := hother.tasks p mem_cons_self
      have hne : id ≠ other := by
        rintro rfl
        cases hcurrent.symm.trans hother.session
      refine Unused.cons ⟨hnone hother.session, hother.active, fun hmem => ?_,
        fun q hq => hother.tasks q (mem_cons_of_mem _ hq)⟩
        ⟨havoids.binding, fun e he => ?_, havoids.found⟩
      · rcases mem_noteEnded.mp hmem with hold | ⟨path, hnew, -⟩
        · exact hother.unbound hold
        · exact hne (congrArg Prod.fst (mem_singleton.mp hnew)).symm
      · rw [mem_singleton.mp he]
        exact hne

end Sound

end Ussd

end SimMaster
