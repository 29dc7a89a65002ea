import SimMaster.DigestOffers

/-!
# Which challenge is selected

A field value is split where a Digest challenge seems to start after a comma. A challenge of another
scheme ends nothing: it is taken for a part of the Digest challenge before it, which is refused for
it. A parameter named `digest` with a blank after the name ends the challenge it belongs to. So a
Digest challenge is seen whole, up to such a parameter, or not at all (`Challenge.seen`), and the
challenge that is selected is the first one seen that can be answered
(`toOption_selectDigestChallenge`). It is the first of all that can be answered if and only if the
two are the same (`selects_first_iff`).
-/

namespace SimMaster.Digest

open Rust List

/-! ## What is seen of a challenge -/

/-- A parameter that seems to start a challenge. -/
def AuthParam.opens (p : AuthParam) : Bool := (Item.param p).opens

/-- Whether a challenge is one of another scheme. -/
def Challenge.isForeign : Challenge → Bool
  | digest .. => false
  | foreign .. => true

/-- The parameters that are seen of a challenge, given the one that follows it in its field value. A
Digest challenge ends before a parameter that seems to start one, and is not seen if another scheme
follows. -/
def Challenge.seen (next : Option Challenge) :
    Challenge → Option (AuthParam × List (Separator × AuthParam))
  | digest _ _ _ first rest =>
    if rest.all fun p => !p.2.opens then
      if next.any isForeign then none else some (first, rest)
    else some (first, rest.takeWhile fun p => !p.2.opens)
  | foreign .. => none

/-- What is offered by parameters that are seen: nothing if they are too long or too many. -/
def boundedOffer (allowPlainMd5 proxy : Bool) (seen : AuthParam × List (Separator × AuthParam)) :
    Option DigestChallenge :=
  if Bounded seen.1 seen.2 then offerOf allowPlainMd5 proxy seen.1 seen.2 else none

/-- What is offered by what is seen of the challenges of a field value, in their order. -/
def seenOffers (allowPlainMd5 proxy : Bool) : FieldValue → List DigestChallenge
  | [] => []
  | (_, challenge) :: rest =>
    ((challenge.seen (rest.head?.map Prod.snd)).bind (boundedOffer allowPlainMd5 proxy)).toList ++
    seenOffers allowPlainMd5 proxy rest

/-- What the challenges of a field value offer, in their order. -/
def offers (allowPlainMd5 proxy : Bool) (field : FieldValue) : List DigestChallenge :=
  field.filterMap fun (_, challenge) => challenge.offer allowPlainMd5 proxy

/-! ## Splitting -/

/-- An item that starts a value, and those up to the next one that does. -/
abbrev Chunk : Type := Item × List (Separator × Item)

def Chunk.text (chunk : Chunk) : Str := chunk.1.text ++ joined chunk.2

/-- The items that belong to what stands before them, and the later chunks. -/
def chunks : List (Separator × Item) → List (Separator × Item) × List Chunk
  | [] => ([], [])
  | (s, i) :: rest =>
    if i.opens then ([], (i, (chunks rest).1) :: (chunks rest).2)
    else ((s, i) :: (chunks rest).1, (chunks rest).2)

theorem stops_joined (items : List (Separator × Item)) : Stops (joined items) := by
  cases items with
  | nil => exact nofun
  | cons head rest =>
    have htext : joined (head :: rest) = head.1.text ++ (head.2.text ++ joined rest) := by
      rw [joined, flatMap_cons, append_assoc]
      rfl
    rw [htext]
    exact head.1.stops _

theorem joined_cons (s : Separator) (i : Item) (rest : List (Separator × Item)) :
    joined ((s, i) :: rest) = s.text ++ (i.text ++ joined rest) := by
  rw [joined, flatMap_cons, append_assoc]
  rfl

variable {text : Str}

theorem ends_joined (h : Ends text) (items : List (Separator × Item)) :
    Ends (text ++ joined items) := by
  induction items generalizing text with
  | nil =>
    rw [joined, flatMap_nil, append_nil]
    exact h
  | cons head rest ih =>
    obtain ⟨s, i⟩ := head
    have hhead := ih (h.append s.text i.ends)
    rw [joined_cons]
    simpa only [append_assoc] using hhead

theorem Chunk.ends (chunk : Chunk) : Ends (Chunk.text chunk) := ends_joined chunk.1.ends chunk.2

/-- **Splitting.** The loop ends an item with all that belongs to it, and goes on with the
chunks. -/
theorem splitDigestLoop_joined (b : Blanks) (h : Ends text) (items : List (Separator × Item)) :
    splitDigestLoop false false (b.text ++ text).reverse (joined items) =
      (text ++ joined (chunks items).1) :: (chunks items).2.map Chunk.text := by
  induction items generalizing b text with
  | nil =>
    have htrim := trim_around (b := []) b.isWhitespace h (forall_mem_nil _)
    rw [append_nil] at htrim
    have hjoined : joined [] = [] := rfl
    rw [hjoined, splitDigestLoop, reverse_reverse, htrim, chunks, hjoined, append_nil]
    rfl
  | cons head rest ih =>
    obtain ⟨s, i⟩ := head
    -- the comma is reached with the blanks before it
    have hbefore := s.before.closed (b.text ++ text).reverse
      (',' :: (s.after.text ++ (i.text ++ joined rest)))
    have htext : joined ((s, i) :: rest) =
        s.before.text ++ ',' :: (s.after.text ++ (i.text ++ joined rest)) := by
      rw [joined_cons, Separator.text, append_assoc, cons_append]
    have hstart : startsWithDigestScheme (trimStart (s.after.text ++ (i.text ++ joined rest))) =
        i.opens := by
      have htrim : trimStart (s.after.text ++ (i.text ++ joined rest)) = i.text ++ joined rest := by
        rw [trimStart, dropWhile_append_of_pos s.after.isWhitespace]
        obtain ⟨hne, hhead, -⟩ := i.ends
        cases hi : i.text with
        | nil => exact absurd hi hne
        | cons c tail =>
          simp only [hi, head_cons] at hhead
          exact dropWhile_cons_of_neg (by simpa using hhead)
      rw [htrim, i.startsWithDigestScheme_text (stops_joined rest)]
    have hitem : ∀ item,
        splitDigestLoop false false item (s.after.text ++ (i.text ++ joined rest)) =
        splitDigestLoop false false ((s.after.text ++ i.text).reverse ++ item) (joined rest) := by
      intro item
      rw [← append_assoc, closed_append s.after.closed i.closed]
    rw [htext, hbefore, splitDigestLoop, Bool.and_false, if_neg Bool.false_ne_true,
      if_neg (by decide), hstart, chunks]
    cases hopens : i.opens with
    | true =>
      have htrim := trim_around b.isWhitespace h s.before.isWhitespace
      have hreverse : (s.before.text.reverse ++ (b.text ++ text).reverse).reverse =
          b.text ++ (text ++ s.before.text) := by
        rw [reverse_append, reverse_reverse, reverse_reverse, append_assoc]
      rw [if_pos (by decide), hreverse, htrim, hitem, append_nil, ih s.after i.ends]
      have hjoined : joined [] = [] := rfl
      simp only [if_pos, hjoined, append_nil, map_cons, Chunk.text]
    | false =>
      have hreverse : (s.after.text ++ i.text).reverse ++
          (',' :: (s.before.text.reverse ++ (b.text ++ text).reverse)) =
          (b.text ++ (text ++ (s.text ++ i.text))).reverse := by
        simp only [Separator.text, reverse_append, reverse_cons, append_assoc,
          cons_append, nil_append]
      rw [if_neg (by decide), hitem, hreverse, ih b (h.append s.text i.ends)]
      simp only [Bool.false_eq_true, if_false, joined_cons, append_assoc]

/-- The pieces of a field value: its first item with what belongs to it, and the chunks. -/
theorem splitDigestChallengeValues_cons (i : Item) (rest : List (Separator × Item)) :
    splitDigestChallengeValues (i.text ++ joined rest) =
      ((i, (chunks rest).1) :: (chunks rest).2).map Chunk.text := by
  have hloop := splitDigestLoop_joined ⟨[], forall_mem_nil _⟩ i.ends rest
  have hitem := i.closed [] (joined rest)
  rw [append_nil] at hitem
  rw [nil_append, ← hitem] at hloop
  rw [splitDigestChallengeValues, (ends_joined i.ends rest).trim, hloop, map_cons]
  refine filter_eq_self.mpr fun text htext => ?_
  have hends : Ends text := by
    rcases mem_cons.mp htext with rfl | htext
    · exact ends_joined i.ends _
    · obtain ⟨chunk, -, rfl⟩ := mem_map.mp htext
      exact chunk.ends
  rw [isEmpty_eq_false_iff.mpr hends.ne_nil]
  rfl

/-! ## Answers of the chunks -/

/-- The items of parameters. -/
def paramItems (params : List (Separator × AuthParam)) : List (Separator × Item) :=
  params.map fun (s, p) => (s, .param p)

theorem text_digest (scheme : Token) (isDigest : IsDigest scheme) (space : Space)
    (first : AuthParam)
    (params : List (Separator × AuthParam)) (more : List (Separator × Item)) :
    Chunk.text (.digest scheme isDigest space first, paramItems params ++ more) =
      scheme.text ++ (space.text ++ (paramsText first params ++ joined more)) := by
  have hparams : first.text ++ joined (paramItems params) = paramsText first params := by
    rw [joined, paramItems, flatMap_map]
    rfl
  rw [Chunk.text, joined, flatMap_append, ← joined, ← joined, Item.text, ← hparams]
  simp only [append_assoc]

variable (allowPlainMd5 proxy : Bool)

/-- A value that does not start with the Digest scheme is not answered. -/
theorem answer_foreign (scheme : Token) (other : ¬IsDigest scheme)
    (head : ForeignHead) (more : List (Separator × Item)) :
    answer allowPlainMd5 proxy (Chunk.text (.foreign scheme other head, more)) = none := by
  have htrim := (Chunk.ends (.foreign scheme other head, more)).trim
  have hstarts : startsWithDigestScheme (Chunk.text (.foreign scheme other head, more)) = false :=
    (Item.foreign scheme other head).startsWithDigestScheme_text (stops_joined more)
  rw [answer, parseDigestChallenge, htrim, hstarts]
  rfl

/-- A parameter that seems to start a challenge is not answered. -/
theorem answer_param {p : AuthParam} (h : p.opens = true) (more : List (Separator × Item)) :
    answer allowPlainMd5 proxy (Chunk.text (.param p, more)) = none := by
  rw [AuthParam.opens, Item.opens, Bool.and_eq_true, decide_eq_true_iff] at h
  obtain ⟨hname, hbefore⟩ := h
  let space : Space := ⟨p.before, fun hnil => by
    rw [hnil] at hbefore
    cases hbefore⟩
  have hequals : Ends ['='] := ends_of_all (cons_ne_nil _ _) fun c hc => by
    rw [mem_singleton.mp hc]
    decide
  have hends := ends_joined (hequals.append p.after.text p.value.ends) more
  have htext : Chunk.text (.param p, more) = p.name.text ++ (space.text ++
      (['='] ++ (p.after.text ++ p.value.text) ++ joined more)) := by
    rw [Chunk.text, Item.text, AuthParam.text]
    simp only [append_assoc, cons_append, nil_append, space]
  have hread : parameter (['='] ++ (p.after.text ++ p.value.text) ++ joined more) =
      .error challengeInvalid := rfl
  have hvisible := visible_of_ends hends []
  have hparams : (parseDigestParams
      (['='] ++ (p.after.text ++ p.value.text) ++ joined more)).toOption = none := by
    rw [parseDigestParams]
    split
    · rfl
    · exact loop_error hvisible hread 64 []
  rw [answer, htext, parseDigestChallenge_text hname space hends]
  cases hparse : parseDigestParams (['='] ++ (p.after.text ++ p.value.text) ++ joined more) with
  | error e => rfl
  | ok params =>
    rw [hparse] at hparams
    cases hparams

/-- The name of another scheme is not followed by an equals sign. -/
theorem parameter_foreign (scheme : Token) (other : ¬IsDigest scheme) (head : ForeignHead)
    (more : List (Separator × Item)) :
    parameter (Chunk.text (.foreign scheme other head, more)) = .error challengeInvalid := by
  have htext : Chunk.text (.foreign scheme other head, more) =
      scheme.text ++ (head.text ++ joined more) := by
    rw [Chunk.text, Item.text, append_assoc]
  have hstops : Stops (head.text ++ joined more) := by
    cases head with
    | bare => exact stops_joined more
    | token68 space text ne_nil all pads =>
      rw [ForeignHead.text, append_assoc]
      exact space.stops _
    | param space first =>
      rw [ForeignHead.text, append_assoc]
      exact space.stops _
  refine parameter_other fun rest heq => ?_
  rw [htext, scheme.takeWhile_append (not_token_of_stops hstops), drop_left] at heq
  cases head with
  | bare =>
    cases more with
    | nil =>
      have hnil : [] = '=' :: rest := heq
      cases hnil
    | cons head more =>
      obtain ⟨s, i⟩ := head
      have hcomma : skipBlanks (joined ((s, i) :: more)) =
          ',' :: (s.after.text ++ (i.text ++ joined more)) := by
        rw [joined_cons, Separator.text, append_assoc, skipBlanks_append, cons_append]
        exact skipBlanks_of_head fun c hc => by
          obtain rfl := Option.some.inj hc
          decide
      have hjoined : ForeignHead.text .bare ++ joined ((s, i) :: more) = joined ((s, i) :: more) :=
        rfl
      rw [hjoined, hcomma] at heq
      exact absurd (cons.inj heq).1 (by decide)
  | token68 space text ne_nil all pads =>
    rw [ForeignHead.text, append_assoc, append_assoc, skipBlanks_append,
      skipBlanks_visible ne_nil fun c hc => (toNat_of_isToken68Char (all c hc)).1] at heq
    cases text with
    | nil => exact ne_nil rfl
    | cons c text =>
      obtain rfl := (cons.inj heq).1
      exact absurd (all _ mem_cons_self) (by decide)
  | param space first =>
    have hfirst : first.text ++ joined more = first.name.text ++ (first.before.text ++
        '=' :: (first.after.text ++ first.value.text) ++ joined more) := by
      rw [AuthParam.text]
      simp only [append_assoc, cons_append]
    rw [ForeignHead.text, append_assoc, skipBlanks_append, hfirst,
      skipBlanks_visible first.name.ne_nil
        fun c hc => (toNat_of_isTokenChar (first.name.all c hc)).1] at heq
    cases hname : first.name.text with
    | nil => exact first.name.ne_nil hname
    | cons c text =>
      rw [hname] at heq
      obtain rfl := (cons.inj heq).1
      have htoken := first.name.all '=' (hname ▸ mem_cons_self)
      exact absurd htoken (by decide)

/-! ## The chunks of a field value -/

/-- The chunks that a parameter starts. -/
def ParamChunk (chunk : Chunk) : Prop := ∃ p : AuthParam, chunk.1 = .param p ∧ p.opens = true

theorem answer_paramChunk {chunk : Chunk} (h : ParamChunk chunk) :
    answer allowPlainMd5 proxy chunk.text = none := by
  obtain ⟨i, more⟩ := chunk
  obtain ⟨p, rfl, hopens⟩ := h
  exact answer_param allowPlainMd5 proxy hopens more

/-- Parameters belong to what stands before them up to the first that seems to start a challenge. -/
theorem chunks_params (params : List (Separator × AuthParam)) (more : List (Separator × Item)) :
    ∃ cut, (∀ chunk ∈ cut, ParamChunk chunk) ∧ chunks (paramItems params ++ more) =
        (paramItems (params.takeWhile fun p => !p.2.opens) ++
          (if params.all fun p => !p.2.opens then (chunks more).1 else []),
          cut ++ (chunks more).2) := by
  induction params with
  | nil => exact ⟨[], nofun, rfl⟩
  | cons head params ih =>
    obtain ⟨s, p⟩ := head
    obtain ⟨cut, hcut, hchunks⟩ := ih
    have hcons : paramItems ((s, p) :: params) ++ more =
        (s, .param p) :: (paramItems params ++ more) := rfl
    have hopens : (Item.param p).opens = p.opens := rfl
    rw [hcons, chunks, hchunks, hopens, all_cons]
    cases hp : p.opens with
    | true =>
      refine ⟨(.param p, paramItems (params.takeWhile fun p => !p.2.opens) ++
        (if params.all fun p => !p.2.opens then (chunks more).1 else [])) :: cut, ?_, ?_⟩
      · intro chunk hchunk
        rcases mem_cons.mp hchunk with rfl | hchunk
        · exact ⟨p, rfl, hp⟩
        · exact hcut chunk hchunk
      · rw [takeWhile_cons_of_neg (by simp [hp])]
        rfl
    | false =>
      refine ⟨cut, hcut, ?_⟩
      rw [takeWhile_cons_of_pos (by simp [hp])]
      rfl

theorem items_cons (s : Separator) (challenge : Challenge) (rest : FieldValue) :
    items ((s, challenge) :: rest) =
      (s, challenge.head) :: (paramItems challenge.rest ++ items rest) := by
  rfl

/-- The items before the first chunk are those of another scheme, if such a challenge is the
first. -/
theorem chunks_items_fst (field : FieldValue) :
    (chunks (items field)).1 = [] ∧ (field.head?.map Prod.snd).any Challenge.isForeign = false ∨
      (field.head?.map Prod.snd).any Challenge.isForeign = true ∧
        ∃ s scheme other head more,
        (chunks (items field)).1 = (s, .foreign scheme other head) :: more := by
  cases field with
  | nil => exact Or.inl ⟨rfl, rfl⟩
  | cons first rest =>
    obtain ⟨s, challenge⟩ := first
    cases challenge with
    | digest scheme isDigest space first params => exact Or.inl ⟨rfl, rfl⟩
    | foreign scheme other head params hparams =>
      exact Or.inr ⟨rfl, s, scheme, other, head, _, rfl⟩

/-- The chunks that nothing answers are left out. -/
theorem filterMap_cut {cut : List Chunk} (h : ∀ chunk ∈ cut, ParamChunk chunk) (more : List Chunk) :
    (cut ++ more).filterMap (fun chunk => answer allowPlainMd5 proxy chunk.text) =
      more.filterMap fun chunk => answer allowPlainMd5 proxy chunk.text := by
  rw [filterMap_append, filterMap_eq_nil_iff.mpr, nil_append]
  exact fun chunk hchunk => answer_paramChunk allowPlainMd5 proxy (h chunk hchunk)

/-- A Digest challenge is answered with what is offered by what is seen of it. -/
theorem answer_digest (scheme : Token) (isDigest : IsDigest scheme)
    (space : Space) (first : AuthParam) (params : List (Separator × AuthParam))
    (rest : FieldValue) :
    answer allowPlainMd5 proxy (Chunk.text (.digest scheme isDigest space first,
        paramItems (params.takeWhile fun p => !p.2.opens) ++
          (if params.all fun p => !p.2.opens then (chunks (items rest)).1 else []))) =
      ((Challenge.digest scheme isDigest space first params).seen (rest.head?.map Prod.snd)).bind
        (boundedOffer allowPlainMd5 proxy) := by
  rw [text_digest, Challenge.seen]
  by_cases hall : (params.all fun p => !p.2.opens) = true
  · have hwhole : (params.takeWhile fun p => !p.2.opens) = params :=
      takeWhile_eq_self_iff.mpr (all_eq_true.mp hall)
    rw [if_pos hall, if_pos hall, hwhole]
    rcases chunks_items_fst rest with ⟨hnone, hnext⟩ | ⟨hnext, s, scheme', other, head, more, hmore⟩
    · have hjoined : joined [] = [] := rfl
      rw [hnone, hnext, hjoined, append_nil, answer_text allowPlainMd5 proxy isDigest]
      rfl
    · have hchunk : joined ((s, .foreign scheme' other head) :: more) =
          s.text ++ Chunk.text (.foreign scheme' other head, more) := joined_cons s _ more
      rw [hmore, hnext, hchunk, answer_refused allowPlainMd5 proxy isDigest space first params s
        (Chunk.ends _) (parameter_foreign scheme' other head more)]
      rfl
  · have hjoined : joined [] = [] := rfl
    rw [if_neg hall, if_neg hall, hjoined, append_nil, answer_text allowPlainMd5 proxy isDigest]
    rfl

/-- **A field value.** Its chunks are answered with what is offered by what is seen of its
challenges. -/
theorem filterMap_chunks (field : FieldValue) :
    (chunks (items field)).2.filterMap (fun chunk => answer allowPlainMd5 proxy chunk.text) =
      seenOffers allowPlainMd5 proxy field := by
  induction field with
  | nil => rfl
  | cons first rest ih =>
    obtain ⟨s, challenge⟩ := first
    rw [seenOffers, ← ih]
    cases challenge with
    | digest scheme isDigest space first params =>
      obtain ⟨cut, hcut, hchunks⟩ := chunks_params params (items rest)
      have hitems : items ((s, .digest scheme isDigest space first params) :: rest) =
          (s, .digest scheme isDigest space first) :: (paramItems params ++ items rest) :=
        items_cons s _ rest
      have hanswer :=
        answer_digest allowPlainMd5 proxy scheme isDigest space first params rest
      have hopens : (Item.digest scheme isDigest space first).opens = true := rfl
      rw [hitems, chunks, if_pos hopens, hchunks, filterMap_cons, hanswer,
        filterMap_cut allowPlainMd5 proxy hcut]
      split
      · next hnone =>
        rw [hnone]
        rfl
      · next challenge hsome =>
        rw [hsome]
        rfl
    | foreign scheme other head params hparams =>
      obtain ⟨cut, hcut, hchunks⟩ := chunks_params params (items rest)
      have hitems : items ((s, .foreign scheme other head params hparams) :: rest) =
          (s, .foreign scheme other head) :: (paramItems params ++ items rest) :=
        items_cons s _ rest
      have hopens : ¬(Item.foreign scheme other head).opens = true := Bool.false_ne_true
      rw [hitems, chunks, if_neg hopens, hchunks]
      exact filterMap_cut allowPlainMd5 proxy hcut _

/-- The pieces of a field value are answered so too. -/
theorem filterMap_split (field : FieldValue) :
    (splitDigestChallengeValues (fieldText field)).filterMap (answer allowPlainMd5 proxy) =
      seenOffers allowPlainMd5 proxy field := by
  rw [← filterMap_chunks]
  cases field with
  | nil => rfl
  | cons first rest =>
    obtain ⟨s, challenge⟩ := first
    have htext : fieldText ((s, challenge) :: rest) =
        challenge.head.text ++ joined (paramItems challenge.rest ++ items rest) := by
      rw [fieldText, items_cons]
    rw [htext, splitDigestChallengeValues_cons, items_cons, chunks, filterMap_map]
    cases challenge with
    | digest scheme isDigest space first params =>
      have hopens : (Challenge.digest scheme isDigest space first params).head.opens = true := rfl
      rfl
    | foreign scheme other head params hparams =>
      have hopens : ¬(Challenge.foreign scheme other head params hparams).head.opens = true :=
        Bool.false_ne_true
      rw [if_neg hopens, filterMap_cons]
      have hnone : (answer allowPlainMd5 proxy ∘ Chunk.text)
          ((Challenge.foreign scheme other head params hparams).head,
            (chunks (paramItems params ++ items rest)).1) = none :=
        answer_foreign allowPlainMd5 proxy scheme other head _
      dsimp only [Challenge.rest] at hnone ⊢
      rw [hnone]
      rfl

/-! ## Selection -/

theorem toOption_selectFirst (allowPlainMd5 : Bool) (e : ImsError) (values : List (Bool × Str)) :
    (selectFirst allowPlainMd5 e values).toOption =
      (values.filterMap fun value => answer allowPlainMd5 value.1 value.2).head? := by
  induction values generalizing e with
  | nil => rfl
  | cons first values ih =>
    obtain ⟨proxy, value⟩ := first
    rw [selectFirst, filterMap_cons, answer]
    cases hanswer : parseDigestChallenge value proxy >>=
        (validateDigestChallengeSupport · allowPlainMd5) with
    | error e => exact ih e
    | ok challenge => rfl

/-- What all field values offer, those of `WWW-Authenticate` first. -/
def allOffers (offersOf : Bool → FieldValue → List DigestChallenge)
    (www proxies : List FieldValue) :
    List DigestChallenge :=
  www.flatMap (offersOf false) ++ proxies.flatMap (offersOf true)

/-- **Selection.** The first challenge is selected that is offered by what is seen of the field
values. -/
theorem toOption_selectDigestChallenge (allowPlainMd5 : Bool) (www proxies : List FieldValue) :
    (selectDigestChallenge (www.map fieldText) (proxies.map fieldText) allowPlainMd5).toOption =
      (allOffers (seenOffers allowPlainMd5) www proxies).head? := by
  have hvalues : ∀ (proxy : Bool) (fields : List FieldValue),
      ((((fields.map fieldText).flatMap splitDigestChallengeValues).map (proxy, ·)).filterMap
        fun value => answer allowPlainMd5 value.1 value.2) =
      fields.flatMap (seenOffers allowPlainMd5 proxy) := by
    intro proxy fields
    induction fields with
    | nil => rfl
    | cons field fields ih =>
      rw [map_cons, flatMap_cons, map_append, filterMap_append, ih,
        flatMap_cons, ← filterMap_split, filterMap_map]
      rfl
  rw [selectDigestChallenge, toOption_selectFirst, filterMap_append, hvalues, hvalues]
  rfl

/-- **The first challenge.** The first challenge of all that can be answered is selected, or an
error if there is none, if and only if it is the first of those that are seen. -/
theorem selects_first_iff (allowPlainMd5 : Bool) (www proxies : List FieldValue) :
    (selectDigestChallenge (www.map fieldText) (proxies.map fieldText) allowPlainMd5).toOption =
        (allOffers (offers allowPlainMd5) www proxies).head? ↔
      (allOffers (seenOffers allowPlainMd5) www proxies).head? =
        (allOffers (offers allowPlainMd5) www proxies).head? := by
  rw [toOption_selectDigestChallenge]

/-! ## A challenge that is not seen -/

def tokenOf (text : Str) (h : text ≠ [] ∧ text.all isTokenChar = true) : Token :=
  ⟨text, h.1, all_eq_true.mp h.2⟩

/-- A parameter without blanks. -/
def tightParam (name : Token) (value : ParamValue) : AuthParam :=
  ⟨name, .empty, .empty, value⟩

/-- A comma and a blank. -/
def commaBlank : Separator :=
  ⟨.empty, ⟨[' '], fun c hc => by rw [mem_singleton.mp hc]; decide⟩⟩

def oneBlank : Space :=
  ⟨⟨[' '], fun c hc => by rw [mem_singleton.mp hc]; decide⟩, cons_ne_nil _ _⟩

def quotedLetter (c : Char) (h : isTextChar c = true ∧ c ≠ '"' ∧ c ≠ '\\') : ParamValue :=
  .quoted [⟨false, c, h.1, fun _ => h.2⟩]

/-- A Digest challenge for AKAv1-MD5, and behind it a Basic challenge. -/
def basicBehindDigest : FieldValue := [
  (commaBlank, .digest (tokenOf "Digest".toList (by decide)) (by decide) oneBlank
    (tightParam (tokenOf "realm".toList (by decide)) (quotedLetter 'a' (by decide)))
    [(commaBlank, tightParam (tokenOf "nonce".toList (by decide)) (quotedLetter 'b' (by decide))),
      (commaBlank, tightParam (tokenOf "algorithm".toList (by decide))
        (.plain "AKAv1-MD5".toList (by decide)
          (all_eq_true.mp (by decide : "AKAv1-MD5".toList.all isPlainChar = true))))]),
  (commaBlank, .foreign (tokenOf "Basic".toList (by decide)) (by decide)
    (.param oneBlank
      (tightParam (tokenOf "realm".toList (by decide)) (quotedLetter 'x' (by decide)))) [] nofun)]

/-- The Digest challenge can be answered, and none is found. -/
theorem basicBehindDigest_hides : fieldText basicBehindDigest =
      "Digest realm=\"a\", nonce=\"b\", algorithm=AKAv1-MD5, Basic realm=\"x\"".toList ∧
    (allOffers (offers false) [basicBehindDigest] []).head? =
      some ⟨"a".toList, "b".toList, "AKAv1-MD5".toList, none, none, false, false⟩ ∧
    selectDigestChallenge [fieldText basicBehindDigest] [] false = .error challengeInvalid := by
  refine ⟨by decide +kernel, by decide +kernel, by decide +kernel⟩

end SimMaster.Digest
