import SimMaster.RegisterContacts

/-!
# Leases, routes and identities of an answer

The lifetime that `parse_for_binding` gives depends on our own bindings only, in whatever fields
and among whatever others they stand, and the routes do not depend on their fields either. The
identities are the URIs in the angle brackets just when no display name has a bracket that is read
for them (`keepsApart_iff`): `collect_associated_uris` takes the first `<` of an entry, in quotes or
not, where `name_addr_range` leaves quotes out.
-/

namespace SimMaster.Register

open Rust Digest List

/-! ## Identities -/

/-- A URI of the schemes that a subscriber may have. -/
def Supported (uri : Str) : Prop :=
  "sip:".toList <+: toAsciiLowercase uri ∨ "sips:".toList <+: toAsciiLowercase uri ∨
    "tel:".toList <+: toAsciiLowercase uri

instance (uri : Str) : Decidable (Supported uri) := inferInstanceAs (Decidable (_ ∨ _))

/-- The identities with one more, if it is of such a scheme and new. -/
def contribute (uris : List Str) (uri : Str) : List Str :=
  if Supported uri ∧ uri ∉ uris then uris ++ [uri] else uris

/-- Two URIs contribute the same just when they are the same or both of other schemes. -/
theorem contribute_eq_iff {x y : Str} :
    (∀ uris, contribute uris x = contribute uris y) ↔ x = y ∨ ¬Supported x ∧ ¬Supported y := by
  have hfirst : ∀ uri, contribute [] uri = if Supported uri then [uri] else [] := fun uri => by
    exact if_congr (and_iff_left not_mem_nil) rfl rfl
  have hother : ∀ {uri}, ¬Supported uri → ∀ uris, contribute uris uri = uris :=
    fun h uris => if_neg fun hboth => h hboth.1
  constructor
  · intro h
    have h := h []
    rw [hfirst, hfirst] at h
    by_cases hx : Supported x <;> by_cases hy : Supported y
    · rw [if_pos hx, if_pos hy] at h
      exact Or.inl (cons.inj h).1
    · rw [if_pos hx, if_neg hy] at h
      cases h
    · rw [if_neg hx, if_pos hy] at h
      cases h
    · exact Or.inr ⟨hx, hy⟩
  · rintro (rfl | ⟨hx, hy⟩) uris
    · rfl
    · rw [hother hx, hother hy]

/-- The text between the first `<` and the first `>` after it, wherever they stand. -/
def FirstBrackets (text s : Str) : Prop :=
  ∃ a b, text = a ++ '<' :: (s ++ '>' :: b) ∧ '<' ∉ a ∧ '>' ∉ s

variable {text s : Str}

theorem FirstBrackets.unique {s' : Str} (h : FirstBrackets text s)
    (h' : FirstBrackets text s') : s = s' := by
  obtain ⟨a, b, heq, ha, hs⟩ := h
  obtain ⟨a', b', heq', ha', hs'⟩ := h'
  exact (Caller.cut_unique (Caller.cut_unique (heq.symm.trans heq') ha ha').2 hs hs').1

/-- An entry contributes what its first brackets hold. -/
theorem collect_of_firstBrackets (htext : Balanced ',' false u16Max text)
    (h : FirstBrackets text s) (uris : List Str) :
    collectAssociatedUris uris text = contribute uris (trim s) := by
  obtain ⟨a, b, rfl, ha, hs⟩ := h
  have htrim : trim (a ++ '<' :: (s ++ '>' :: b)) =
      trimStart a ++ '<' :: (s ++ '>' :: trimEnd b) := by
    rw [trim, Caller.trimStart_append_cons (by decide), Caller.trimEnd_append_cons (by decide),
      Caller.trimEnd_append_cons (by decide)]
  have hstart : '<' ∉ trimStart a := fun hmem => ha ((dropWhile_suffix _).mem hmem)
  have hsplit := splitSipList_delimited (forall_mem_singleton.mpr htext)
  rw [if_neg (cons_ne_nil _ _), delimited] at hsplit
  rw [collectAssociatedUris, hsplit, foldl_cons, foldl_nil]
  dsimp only
  rw [htrim, splitOnce_append _ hstart, Option.bind_some, splitOnce_append _ hs]
  rfl

/-- **Fields of identities.** They are read entry by entry. -/
theorem collect_delimited {texts : List Str}
    (h : ∀ text ∈ texts, Balanced ',' false u16Max text) (uris : List Str) :
    collectAssociatedUris uris (delimited ',' texts) = texts.foldl collectAssociatedUris uris := by
  by_cases hne : texts = []
  · have hnothing : collectAssociatedUris uris [] = contribute uris [] := rfl
    rw [hne, delimited, hnothing, contribute, if_neg (fun h => absurd h.1 (by decide))]
    rfl
  · have hsingle : ∀ text ∈ texts, splitSipList text = [text] := fun text hmem => by
      have hsplit := splitSipList_delimited (forall_mem_singleton.mpr (h text hmem))
      rwa [if_neg (cons_ne_nil _ _), delimited] at hsplit
    rw [collectAssociatedUris, splitSipList_delimited h, if_neg hne]
    refine foldl_ext _ _ _ fun uris text hmem => ?_
    rw [collectAssociatedUris, hsingle text hmem]
    rfl

theorem not_mem_blanks (b : Blanks) : '<' ∉ b.text := fun hmem => absurd (b.all _ hmem) (by decide)

/-- The brackets of the URI are the first ones where the display name has no `<`. -/
theorem firstBrackets_plain {e : Listed} (h : '<' ∉ e.addr.display.text) :
    FirstBrackets e.text e.addr.uri := by
  refine ⟨_, _, text_cut e, ?_, (Caller.uri_facts e.addr).2.1⟩
  rw [mem_append]
  exact not_or.mpr ⟨not_mem_blanks e.before, h⟩

theorem exists_firstBrackets (e : Listed) : ∃ s, FirstBrackets e.text s := by
  by_cases h : '<' ∈ e.addr.display.text
  · obtain ⟨a, r, hdisplay, ha⟩ := eq_append_cons_of_mem h
    have hcut : e.text = (e.before.text ++ a) ++
        '<' :: (r ++ '<' :: (e.addr.uri ++ '>' :: (e.addr.paramsText ++ e.after.text))) := by
      rw [text_cut, hdisplay]
      simp only [append_assoc, cons_append]
    have hclose : '>' ∈ r ++ '<' :: (e.addr.uri ++ '>' :: (e.addr.paramsText ++ e.after.text)) := by
      simp
    obtain ⟨s, b, hr, hs⟩ := eq_append_cons_of_mem hclose
    refine ⟨s, e.before.text ++ a, b, by rw [hcut, hr], ?_, hs⟩
    rw [mem_append]
    exact not_or.mpr ⟨not_mem_blanks e.before, ha⟩
  · exact ⟨_, firstBrackets_plain h⟩

/-- The first brackets are those of the URI, or they make no difference. -/
def Clear (e : Listed) : Prop :=
  '<' ∉ e.addr.display.text ∨
    ∃ s, FirstBrackets e.text s ∧
      (trim s = e.addr.uri ∨ ¬Supported (trim s) ∧ ¬Supported e.addr.uri)

/-- **One identity.** An entry contributes its URI just when it is clear. -/
theorem contributes_iff (e : Listed) :
    (∀ uris, collectAssociatedUris uris e.text = contribute uris e.addr.uri) ↔ Clear e := by
  obtain ⟨s, hs⟩ := exists_firstBrackets e
  have hiff : (∀ uris, collectAssociatedUris uris e.text = contribute uris e.addr.uri) ↔
      trim s = e.addr.uri ∨ ¬Supported (trim s) ∧ ¬Supported e.addr.uri := by
    rw [← contribute_eq_iff]
    exact forall_congr' fun uris => by rw [collect_of_firstBrackets e.balanced hs]
  rw [hiff]
  constructor
  · exact fun h => Or.inr ⟨s, hs, h⟩
  · rintro (hplain | ⟨s', hs', h⟩)
    · rw [hs.unique (firstBrackets_plain hplain)]
      exact Or.inl (Caller.uri_facts e.addr).2.2.1
    · rwa [hs.unique hs']

/-! ## Leases -/

/-- The Contact fields of the frame hold these bindings, field by field. -/
structure Binds (frame : Bytes) (lines : List (List Str)) : Prop where
  balanced : ∀ line ∈ lines, ∀ contact ∈ line, Balanced ',' false u16Max contact
  values : headerValues frame "Contact".toList ++ headerValues frame "m".toList =
    lines.map (delimited ',')

/-- The binding has our instance and our reg-id. -/
def IsOwn (inst : Str) (regId : ℕ) (contact : Str) : Prop :=
  contactParameter contact "+sip.instance".toList = some inst ∧
    (contactParameter contact "reg-id".toList).bind (parseUnsigned u32Max) = some regId

instance (inst : Str) (regId : ℕ) (contact : Str) : Decidable (IsOwn inst regId contact) :=
  inferInstanceAs (Decidable (_ ∧ _))

/-- Our bindings among those of the fields. -/
def ownBindings (inst : Str) (regId : ℕ) (lines : List (List Str)) : List Str :=
  (lines.flatten.map trim).filter fun contact => IsOwn inst regId contact

variable {frame : Bytes}

theorem filter_contactBindings {lines : List (List Str)} (h : Binds frame lines)
    (inst : Str) (regId : ℕ) :
    (contactBindings frame).filter (fun contact => IsOwn inst regId contact) =
      ownBindings inst regId lines := by
  rw [contactBindings, h.values, flatMap_lines h.balanced, filter_filter, ownBindings]
  refine filter_congr fun contact _ => ?_
  cases contact with
  | nil => rfl
  | cons c contact => exact Bool.and_true _

variable {response : Bytes} {inst : Str} {regId : ℕ}

theorem parseForBinding_single {contact : Str}
    (h : (contactBindings response).filter (fun contact => IsOwn inst regId contact) = [contact]) :
    (RegisterArtifacts.parseForBinding response inst regId).ownBindingFound = true ∧
      (RegisterArtifacts.parseForBinding response inst regId).expiresSeconds =
        (contactExpires contact).or (headerExpires response) := by
  have hown : ((contactBindings response).filter fun contact =>
      contactParameter contact "+sip.instance".toList = some inst ∧
        (contactParameter contact "reg-id".toList).bind (parseUnsigned u32Max) = some regId) =
          [contact] := h
  rw [RegisterArtifacts.parseForBinding, hown]
  exact ⟨rfl, rfl⟩

theorem parseForBinding_other {own : List Str}
    (h : (contactBindings response).filter (fun contact => IsOwn inst regId contact) = own)
    (hlength : own.length ≠ 1) :
    (RegisterArtifacts.parseForBinding response inst regId).ownBindingFound = false ∧
      (RegisterArtifacts.parseForBinding response inst regId).expiresSeconds =
        headerExpires response := by
  have hown : ((contactBindings response).filter fun contact =>
      contactParameter contact "+sip.instance".toList = some inst ∧
        (contactParameter contact "reg-id".toList).bind (parseUnsigned u32Max) = some regId) =
          own := h
  rw [RegisterArtifacts.parseForBinding, hown]
  rcases own with _ | ⟨contact, _ | ⟨second, own⟩⟩
  · exact ⟨rfl, rfl⟩
  · exact absurd rfl hlength
  · exact ⟨rfl, rfl⟩

/-- **Own lease.** It depends on our own bindings and the Expires field. -/
theorem parseForBinding_lease {before after : Bytes}
    (hown : ((contactBindings before).filter fun contact => IsOwn inst regId contact).Perm
      ((contactBindings after).filter fun contact => IsOwn inst regId contact))
    (hexpires : headerExpires before = headerExpires after) :
    (RegisterArtifacts.parseForBinding before inst regId).ownBindingFound =
        (RegisterArtifacts.parseForBinding after inst regId).ownBindingFound ∧
      (RegisterArtifacts.parseForBinding before inst regId).expiresSeconds =
        (RegisterArtifacts.parseForBinding after inst regId).expiresSeconds := by
  by_cases hone : ((contactBindings before).filter fun contact =>
      decide (IsOwn inst regId contact)).length = 1
  · obtain ⟨contact, hsingle⟩ := length_eq_one_iff.mp hone
    have hafter := hown.symm
    rw [hsingle, perm_singleton] at hafter
    obtain ⟨hfound, hlease⟩ := parseForBinding_single hsingle
    obtain ⟨hfound', hlease'⟩ := parseForBinding_single hafter
    rw [hfound, hlease, hfound', hlease', hexpires]
    exact ⟨rfl, rfl⟩
  · obtain ⟨hfound, hlease⟩ := parseForBinding_other rfl hone
    obtain ⟨hfound', hlease'⟩ := parseForBinding_other rfl (hown.length_eq ▸ hone)
    rw [hfound, hlease, hfound', hlease', hexpires]
    exact ⟨rfl, rfl⟩

/-! ## Answers -/

/-- The fields of the name list these entries, field by field. -/
def Lists (frame : Bytes) (name : Str) (lines : List (List Listed)) : Prop :=
  headerValues frame name = lines.map fun line => delimited ',' (line.map Listed.text)

def serviceRouteHeader : Str := "Service-Route".toList

def associatedUriHeader : Str := "P-Associated-URI".toList

/-- What answers with these entries are read for: a parameter of a binding is its own, our lease is
not borrowed from another binding, routes and identities do not depend on the fields they stand in,
the routes can be split again, and each identity is the URI of its entry. -/
structure KeepsApart (entries : List Listed) : Prop where
  named : ∀ (contact : Listed) wanted,
    contactParameter (trim contact.text) wanted = ownParameter contact.addr.params wanted
  lease : ∀ before after linesBefore linesAfter inst regId, Binds before linesBefore →
    Binds after linesAfter →
    (ownBindings inst regId linesBefore).Perm (ownBindings inst regId linesAfter) →
    headerExpires before = headerExpires after →
      (RegisterArtifacts.parseForBinding before inst regId).ownBindingFound =
          (RegisterArtifacts.parseForBinding after inst regId).ownBindingFound ∧
        (RegisterArtifacts.parseForBinding before inst regId).expiresSeconds =
          (RegisterArtifacts.parseForBinding after inst regId).expiresSeconds
  routes : ∀ before after linesBefore linesAfter, Lists before serviceRouteHeader linesBefore →
    Lists after serviceRouteHeader linesAfter → linesBefore.flatten = entries →
    linesAfter.flatten = entries →
      (RegisterArtifacts.parse before).serviceRoute = (RegisterArtifacts.parse after).serviceRoute
  order : ∀ frame lines, Lists frame serviceRouteHeader lines → lines.flatten = entries →
    entries = [] ∧ (RegisterArtifacts.parse frame).serviceRoute = none ∨
      ∃ route, (RegisterArtifacts.parse frame).serviceRoute = some route ∧
        (splitSipList route).map trim = entries.map fun e => trim e.text
  identities : ∀ before after linesBefore linesAfter, Lists before associatedUriHeader linesBefore →
    Lists after associatedUriHeader linesAfter → linesBefore.flatten = entries →
    linesAfter.flatten = entries →
      (RegisterArtifacts.parse before).associatedUris =
        (RegisterArtifacts.parse after).associatedUris
  contributes : ∀ e ∈ entries, ∀ uris,
    collectAssociatedUris uris e.text = contribute uris e.addr.uri
  shown : ∀ frame lines, Lists frame associatedUriHeader lines → lines.flatten = entries →
    (RegisterArtifacts.parse frame).associatedUris =
      (entries.map fun e => e.addr.uri).foldl contribute []

variable {lines : List (List Listed)}

/-- The routes of a frame. -/
theorem serviceRoute_of_lists (h : Lists frame serviceRouteHeader lines) :
    (RegisterArtifacts.parse frame).serviceRoute = if lines.flatten.isEmpty then none
      else some ((lines.flatten.map fun e => trim e.text).intersperse ", ".toList).flatten := by
  have hbalanced : ∀ line ∈ lines.map (List.map Listed.text), ∀ text ∈ line,
      Balanced ',' false u16Max text := by
    intro line hline text htext
    obtain ⟨listed, -, rfl⟩ := mem_map.mp hline
    obtain ⟨e, -, rfl⟩ := mem_map.mp htext
    exact e.balanced
  have hne : ∀ text ∈ lines.flatten.map fun e => trim e.text, (!text.isEmpty) = true := by
    intro text hmem
    obtain ⟨e, -, rfl⟩ := mem_map.mp hmem
    rw [text_cut, trim, Caller.trimStart_append_cons (by decide),
      Caller.trimEnd_append_cons (by decide), Bool.not_eq_true', isEmpty_eq_false_iff]
    exact append_ne_nil_of_right_ne_nil _ (cons_ne_nil _ _)
  have hroutes : ((headerValues frame serviceRouteHeader).flatMap fun value =>
      (splitSipList value).map trim).filter (fun route => !route.isEmpty) =
        lines.flatten.map fun e => trim e.text := by
    have hvalues : headerValues frame serviceRouteHeader =
        (lines.map (List.map Listed.text)).map (delimited ',') := by
      rw [h, map_map]
      rfl
    rw [hvalues, filter_flatMap, flatMap_lines hbalanced, ← map_flatten, map_map]
    exact filter_eq_self.mpr hne
  have hparse : (RegisterArtifacts.parse frame).serviceRoute =
      if (((headerValues frame serviceRouteHeader).flatMap fun value =>
        (splitSipList value).map trim).filter fun route => !route.isEmpty).isEmpty then none
      else some ((((headerValues frame serviceRouteHeader).flatMap fun value =>
        (splitSipList value).map trim).filter fun route => !route.isEmpty).intersperse
          ", ".toList).flatten := rfl
  rw [hparse, hroutes, isEmpty_map]

/-- The identities of a frame. -/
theorem associatedUris_of_lists (h : Lists frame associatedUriHeader lines) :
    (RegisterArtifacts.parse frame).associatedUris =
      lines.flatten.foldl (fun uris e => collectAssociatedUris uris e.text) [] := by
  have hparse : (RegisterArtifacts.parse frame).associatedUris =
      (headerValues frame associatedUriHeader).foldl collectAssociatedUris [] := rfl
  rw [hparse, h]
  generalize ([] : List Str) = uris
  clear h hparse
  induction lines generalizing uris with
  | nil => rfl
  | cons line lines ih =>
    have hline : ∀ text ∈ line.map Listed.text, Balanced ',' false u16Max text := by
      intro text hmem
      obtain ⟨e, -, rfl⟩ := mem_map.mp hmem
      exact e.balanced
    rw [map_cons, foldl_cons, collect_delimited hline, ih, flatten_cons, foldl_append, foldl_map]

/-- **A successful REGISTER.** Leases, routes and identities are kept apart just when no display
name of an entry has a bracket that is taken for that of the URI. -/
theorem keepsApart_iff (entries : List Listed) : KeepsApart entries ↔ ∀ e ∈ entries, Clear e := by
  constructor
  · exact fun h e hmem => (contributes_iff e).mp (h.contributes e hmem)
  · intro hclear
    have hcontributes : ∀ e ∈ entries, ∀ uris,
        collectAssociatedUris uris e.text = contribute uris e.addr.uri :=
      fun e hmem => (contributes_iff e).mpr (hclear e hmem)
    refine ⟨contactParameter_text, ?_, ?_, ?_, ?_, hcontributes, ?_⟩
    · intro before after linesBefore linesAfter inst regId hbefore hafter hown hexpires
      rw [← filter_contactBindings hbefore, ← filter_contactBindings hafter] at hown
      exact parseForBinding_lease hown hexpires
    · intro before after linesBefore linesAfter hbefore hafter heqBefore heqAfter
      rw [serviceRoute_of_lists hbefore, serviceRoute_of_lists hafter, heqBefore, heqAfter]
    · intro frame lines hframe heq
      rw [serviceRoute_of_lists hframe, heq]
      by_cases hne : entries = []
      · exact Or.inl ⟨hne, by rw [hne]; rfl⟩
      · rw [if_neg (by rwa [List.isEmpty_iff])]
        refine Or.inr ⟨_, rfl, splitSipList_spaced (fun h => hne (map_eq_nil_iff.mp h)) ?_⟩
        intro text hmem
        obtain ⟨e, -, rfl⟩ := mem_map.mp hmem
        exact ⟨e.balanced.trim, trim_trim e.text⟩
    · intro before after linesBefore linesAfter hbefore hafter heqBefore heqAfter
      rw [associatedUris_of_lists hbefore, associatedUris_of_lists hafter, heqBefore, heqAfter]
    · intro frame lines hframe heq
      rw [associatedUris_of_lists hframe, heq, foldl_map]
      exact foldl_ext _ _ _ fun uris e hmem => hcontributes e hmem uris

/-- A character that needs no backslash. -/
def plainQuoted (c : Char) (isText : isTextChar c = true) (plain : c ≠ '"' ∧ c ≠ '\\') :
    QuotedChar :=
  ⟨false, c, isText, fun _ => plain⟩

/-- The entry `"<tel:1>" <tel:2>`. -/
def spoofedEntry : Listed where
  before := ⟨[], forall_mem_nil _⟩
  addr :=
    { display := .quoted
        [plainQuoted '<' rfl (by decide), plainQuoted 't' rfl (by decide),
          plainQuoted 'e' rfl (by decide), plainQuoted 'l' rfl (by decide),
          plainQuoted ':' rfl (by decide), plainQuoted '1' rfl (by decide),
          plainQuoted '>' rfl (by decide)]
        ⟨[' '], forall_mem_singleton.mpr rfl⟩
      uri := ['t', 'e', 'l', ':', '2']
      uri_ne_nil := cons_ne_nil _ _
      uri_all := all_eq_true.mp (by decide +kernel)
      params := [] }
  after := ⟨[], forall_mem_nil _⟩

def spoofedAnswer : Bytes :=
  asBytes "SIP/2.0 200 OK\r\nP-Associated-URI: \"<tel:1>\" <tel:2>\r\n\r\n".toList

/-- The display name of this entry is taken for its identity. -/
theorem spoofedEntry_not_keepsApart : ¬KeepsApart [spoofedEntry] := by
  intro h
  have hlists : Lists spoofedAnswer associatedUriHeader [[spoofedEntry]] := by
    rw [Lists]
    decide +kernel
  have hshown := h.shown spoofedAnswer [[spoofedEntry]] hlists rfl
  have hread : (RegisterArtifacts.parse spoofedAnswer).associatedUris = ["tel:1".toList] := by
    decide +kernel
  rw [hread] at hshown
  revert hshown
  decide +kernel

end SimMaster.Register
