import Cygnus.Wiki.Service

/-! A page's text as a sequence of characters and wikilinks, and what the cleanup of a deleted page
does to it. -/

namespace Cygnus.Wiki

open Text

inductive Token
  | char (c : Char)
  | link (slug : List Char) (display : Option (List Char))

namespace Token

def render : Token → List Char
  | char c => [c]
  | link slug none => ['[', '['] ++ slug ++ [']', ']']
  | link slug (some display) => ['[', '['] ++ slug ++ '|' :: display ++ [']', ']']

def slug? : Token → Option (List Char)
  | char _ => none
  | link slug _ => some slug

/-- The text of the token, were it a link, is read as that link. -/
def Sound : Token → Prop
  | char _ => True
  | link slug display => slug ≠ [] ∧ (∀ c ∈ slug, c ≠ ']' ∧ c ≠ '|') ∧
      ∀ text ∈ display, ']' ∉ text

end Token

def renderAll (tokens : List Token) : List Char := tokens.flatMap Token.render

/-- The display text that follows the slug of a link. -/
def displayOf : List Char → Option (List Char)
  | '|' :: cs => some (cs.takeWhile (· ≠ ']'))
  | _ => none

/-- The tokens of a text from left to right; `fuel` is at least the length. -/
def tokens : Nat → List Char → List Token
  | 0, _ => []
  | fuel + 1, cs =>
    match matchWikilink cs with
    | some (slug, rest) =>
      .link slug (displayOf (cs.drop (2 + slug.length))) :: tokens fuel rest
    | none =>
      match cs with
      | [] => []
      | c :: cs => .char c :: tokens fuel cs

/-- A reading of a text: no character starts a link of the text that follows. -/
inductive Reads : List Token → Prop
  | nil : Reads []
  | char {c : Char} {ts : List Token} (h : matchWikilink (c :: renderAll ts) = none)
      (hts : Reads ts) : Reads (.char c :: ts)
  | link {slug : List Char} {display : Option (List Char)} {ts : List Token}
      (h : (Token.link slug display).Sound) (hts : Reads ts) : Reads (.link slug display :: ts)

section Matching

variable {slug display rest cs : List Char}

theorem matchWikilink_plain (hne : slug ≠ []) (hslug : ∀ c ∈ slug, c ≠ ']' ∧ c ≠ '|') :
    matchWikilink (['[', '['] ++ slug ++ [']', ']'] ++ rest) = some (slug, rest) := by
  have hrun : (slug ++ ']' :: (']' :: rest)).takeWhile (fun c => c ≠ ']' && c ≠ '|') = slug := by
    apply takeWhile_append_stop
    · intro c hc
      simpa using hslug c hc
    · rfl
  have htext : ['[', '['] ++ slug ++ [']', ']'] ++ rest = '[' :: '[' :: (slug ++ ']' :: (']' :: rest)) := by
    simp
  rw [htext, matchWikilink, hrun, if_neg hne]
  simp

theorem matchWikilink_display (hne : slug ≠ []) (hslug : ∀ c ∈ slug, c ≠ ']' ∧ c ≠ '|')
    (hdisplay : ']' ∉ display) :
    matchWikilink (['[', '['] ++ slug ++ '|' :: display ++ [']', ']'] ++ rest) = some (slug, rest) := by
  have htext : ['[', '['] ++ slug ++ '|' :: display ++ [']', ']'] ++ rest =
      '[' :: '[' :: (slug ++ '|' :: (display ++ ']' :: (']' :: rest))) := by
    simp
  have hrun : (slug ++ '|' :: (display ++ ']' :: (']' :: rest))).takeWhile
      (fun c => c ≠ ']' && c ≠ '|') = slug := by
    apply takeWhile_append_stop
    · intro c hc
      simpa using hslug c hc
    · rfl
  have hstop : (display ++ ']' :: (']' :: rest)).dropWhile (· ≠ ']') = ']' :: (']' :: rest) := by
    apply dropWhile_append_stop
    · intro c hc
      have : c ≠ ']' := fun h => hdisplay (h ▸ hc)
      simpa using this
    · rfl
  rw [htext, matchWikilink, hrun, if_neg hne, List.drop_left]
  simp only [hstop]

/-- A sound link is read where its text stands. -/
theorem matchWikilink_link {text : Option (List Char)} (h : (Token.link slug text).Sound) :
    matchWikilink ((Token.link slug text).render ++ rest) = some (slug, rest) := by
  obtain ⟨hne, hslug, hdisplay⟩ := h
  cases text with
  | none => exact matchWikilink_plain hne hslug
  | some display => exact matchWikilink_display hne hslug (hdisplay display rfl)

/-- What is read as a link is the text of a sound one. -/
theorem matchWikilink_some (h : matchWikilink cs = some (slug, rest)) :
    (Token.link slug (displayOf (cs.drop (2 + slug.length)))).Sound ∧
      cs = (Token.link slug (displayOf (cs.drop (2 + slug.length)))).render ++ rest := by
  unfold matchWikilink at h
  split at h
  · rename_i inner
    dsimp only at h
    generalize hrun : inner.takeWhile (fun c => c ≠ ']' && c ≠ '|') = run at h
    have hclean : ∀ c ∈ run, c ≠ ']' ∧ c ≠ '|' := by
      intro c hc
      rw [← hrun] at hc
      simpa using List.mem_takeWhile_imp hc
    have hsplit : inner = run ++ inner.drop run.length := by
      have hstarts := List.takeWhile_prefix (l := inner) (fun c => c ≠ ']' && c ≠ '|')
      rw [hrun] at hstarts
      exact (List.prefix_iff_eq_append.mp hstarts).symm
    have hdrop : ('[' :: '[' :: inner).drop (2 + run.length) = inner.drop run.length := by
      rw [Nat.add_comm]
      rfl
    split at h
    · cases h
    · rename_i hne
      split at h
      · rename_i after hafter
        cases h
        rw [hdrop, hafter, show displayOf (']' :: ']' :: rest) = none from rfl]
        refine ⟨⟨hne, hclean, by simp⟩, ?_⟩
        conv_lhs => rw [hsplit, hafter]
        simp [Token.render]
      · rename_i after hafter
        split at h
        · rename_i tail htail
          cases h
          rw [hdrop, hafter,
            show displayOf ('|' :: after) = some (after.takeWhile (· ≠ ']')) from rfl]
          refine ⟨⟨hne, hclean, ?_⟩, ?_⟩
          · intro text htext hmem
            cases htext
            simpa using List.mem_takeWhile_imp hmem
          · conv_lhs => rw [hsplit, hafter]
            have hafter' := List.takeWhile_append_dropWhile (p := (· ≠ ']')) (l := after)
            rw [htail] at hafter'
            conv_lhs => rw [← hafter']
            simp [Token.render]
        · cases h
      · cases h
  · cases h

end Matching

section Reading

theorem renderAll_cons (t : Token) (ts : List Token) : renderAll (t :: ts) = t.render ++ renderAll ts :=
  rfl

theorem matchWikilink_rest_lt {cs slug rest : List Char} (h : matchWikilink cs = some (slug, rest)) :
    rest.length < cs.length := by
  have hcs := (matchWikilink_some h).2
  have hlength := congrArg List.length hcs
  rw [List.length_append] at hlength
  have hpos : 0 < (Token.link slug (displayOf (cs.drop (2 + slug.length)))).render.length := by
    cases displayOf (cs.drop (2 + slug.length)) <;> simp [Token.render]
  omega

theorem tokens_link {fuel : Nat} {cs slug rest : List Char}
    (h : matchWikilink cs = some (slug, rest)) : tokens (fuel + 1) cs =
      .link slug (displayOf (cs.drop (2 + slug.length))) :: tokens fuel rest := by
  rw [tokens.eq_def]
  simp only [h]

theorem tokens_char {fuel : Nat} {c : Char} {cs : List Char} (h : matchWikilink (c :: cs) = none) :
    tokens (fuel + 1) (c :: cs) = .char c :: tokens fuel cs := by
  rw [tokens.eq_def]
  simp only [h]

theorem displayOf_render {slug rest : List Char} {display : Option (List Char)}
    (h : (Token.link slug display).Sound) :
    displayOf (((Token.link slug display).render ++ rest).drop (2 + slug.length)) = display := by
  have hdrop : ∀ tail : List Char, (['[', '['] ++ slug ++ tail).drop (2 + slug.length) = tail := by
    intro tail
    rw [show 2 + slug.length = (['[', '['] ++ slug).length by
      simp
      omega, List.drop_left]
  cases display with
  | none =>
    rw [Token.render, List.append_assoc (['[', '['] ++ slug), hdrop]
    rfl
  | some text =>
    have hstop : (text ++ ']' :: (']' :: rest)).takeWhile (· ≠ ']') = text := by
      apply takeWhile_append_stop
      · intro c hc
        have : c ≠ ']' := fun heq => h.2.2 text rfl (heq ▸ hc)
        simpa using this
      · rfl
    have htext : (Token.link slug (some text)).render ++ rest =
        ['[', '['] ++ slug ++ ('|' :: (text ++ ']' :: (']' :: rest))) := by
      simp [Token.render]
    rw [htext, hdrop]
    exact congrArg some hstop

/-- Every text has a reading. -/
theorem tokens_reads {fuel : Nat} {cs : List Char} (h : cs.length ≤ fuel) :
    Reads (tokens fuel cs) ∧ renderAll (tokens fuel cs) = cs := by
  induction fuel generalizing cs with
  | zero =>
    obtain rfl := List.length_eq_zero_iff.mp (Nat.le_zero.mp h)
    exact ⟨.nil, rfl⟩
  | succ fuel ih =>
    unfold tokens
    split
    · rename_i slug rest hmatch
      have hlt := matchWikilink_rest_lt hmatch
      obtain ⟨hsound, hcs⟩ := matchWikilink_some hmatch
      obtain ⟨hreads, hrender⟩ := ih (show rest.length ≤ fuel by omega)
      refine ⟨.link hsound hreads, ?_⟩
      rw [renderAll_cons, hrender, ← hcs]
    · rename_i hmatch
      split
      · exact ⟨.nil, rfl⟩
      · rename_i c cs
        obtain ⟨hreads, hrender⟩ := ih (show cs.length ≤ fuel by simpa using h)
        refine ⟨.char ?_ hreads, ?_⟩
        · rw [hrender]
          exact hmatch
        · rw [renderAll_cons, hrender]
          rfl

/-- A reading is found by its own text. -/
theorem Reads.tokens_eq {ts : List Token} (h : Reads ts) {fuel : Nat}
    (hfuel : (renderAll ts).length ≤ fuel) : tokens fuel (renderAll ts) = ts := by
  induction h generalizing fuel with
  | nil => cases fuel <;> rfl
  | @char c ts hmatch hts ih =>
    cases fuel with
    | zero => simp [renderAll, Token.render] at hfuel
    | succ fuel =>
      have hlength : (renderAll ts).length ≤ fuel := Nat.le_of_succ_le_succ hfuel
      show tokens (fuel + 1) (c :: renderAll ts) = _
      rw [tokens_char hmatch, ih hlength]
  | @link slug display ts hsound hts ih =>
    have hmatch := @matchWikilink_link slug (renderAll ts) display hsound
    have hlt := matchWikilink_rest_lt hmatch
    cases fuel with
    | zero =>
      rw [renderAll_cons] at hfuel
      omega
    | succ fuel =>
      rw [renderAll_cons] at hfuel ⊢
      rw [tokens_link hmatch, ih (by omega), displayOf_render hsound]

/-- The links that a text yields are those of its reading. -/
theorem findWikilinks_eq (fuel : Nat) (cs : List Char) :
    findWikilinks fuel cs = (tokens fuel cs).filterMap fun t => t.slug?.map String.ofList := by
  induction fuel generalizing cs with
  | zero => rfl
  | succ fuel ih =>
    cases hmatch : matchWikilink cs with
    | some found =>
      obtain ⟨slug, rest⟩ := found
      rw [findWikilinks.eq_def, tokens_link hmatch, List.filterMap_cons]
      simp only [hmatch, Token.slug?, Option.map_some, ih]
    | none =>
      cases cs with
      | nil => rfl
      | cons c cs =>
        rw [findWikilinks.eq_def, tokens_char hmatch, List.filterMap_cons]
        simp only [hmatch, Token.slug?, Option.map_none, ih]

/-- The slugs of the links of a reading, trimmed. -/
def yields (ts : List Token) (slug : String) : Prop :=
  slug ≠ "" ∧ ∃ raw display, Token.link raw display ∈ ts ∧ strip (String.ofList raw) = slug

theorem Reads.mem_extractWikilinks {ts : List Token} (h : Reads ts) {slug : String} :
    slug ∈ extractWikilinks (String.ofList (renderAll ts)) ↔ yields ts slug := by
  have htokens : tokens (String.ofList (renderAll ts)).length (renderAll ts) = ts := by
    apply h.tokens_eq
    rw [String.length_ofList]
  rw [extractWikilinks, String.toList_ofList, findWikilinks_eq, htokens]
  simp only [List.mem_eraseDups, List.mem_filter, List.mem_map, List.mem_filterMap, decide_eq_true_eq,
    yields]
  constructor
  · rintro ⟨⟨text, ⟨token, htoken, htext⟩, rfl⟩, hne⟩
    refine ⟨hne, ?_⟩
    cases token with
    | char c => cases htext
    | link raw display =>
      obtain rfl : String.ofList raw = text := by simpa [Token.slug?] using htext
      exact ⟨raw, display, htoken, rfl⟩
  · rintro ⟨hne, raw, display, htoken, rfl⟩
    exact ⟨⟨String.ofList raw, ⟨_, htoken, rfl⟩, rfl⟩, hne⟩

end Reading

section Unlinking

/-- The text of a link between its brackets. -/
def linkInner (slug : List Char) (display : Option (List Char)) : List Char :=
  slug ++ display.elim [] ('|' :: ·)

theorem render_link (slug : List Char) (display : Option (List Char)) :
    (Token.link slug display).render = ['[', '['] ++ linkInner slug display ++ [']', ']'] := by
  cases display <;> simp [Token.render, linkInner]

theorem linkInner_no_close {slug : List Char} {display : Option (List Char)}
    (h : (Token.link slug display).Sound) : ']' ∉ linkInner slug display := by
  intro hmem
  rcases List.mem_append.mp hmem with hmem | hmem
  · exact (h.2.1 _ hmem).1 rfl
  · cases display with
    | none => cases hmem
    | some text =>
      rcases List.mem_cons.mp hmem with heq | hmem
      · cases heq
      · exact h.2.2 text rfl hmem

/-- An open slug before a link takes the link in. -/
theorem absorb_slug {before slug rest : List Char} {display : Option (List Char)}
    (hbefore : ∀ c ∈ before, c ≠ ']' ∧ c ≠ '|') (h : (Token.link slug display).Sound) :
    matchWikilink (['[', '['] ++ before ++ (Token.link slug display).render ++ rest) ≠ none := by
  have hsound : (Token.link (before ++ ['[', '['] ++ slug) display).Sound := by
    refine ⟨by simp, ?_, h.2.2⟩
    intro c hc
    rw [List.mem_append, List.mem_append] at hc
    rcases hc with (hc | hc) | hc
    · exact hbefore c hc
    · obtain rfl : c = '[' := by simpa using hc
      decide
    · exact h.2.1 c hc
  have htext : ['[', '['] ++ before ++ (Token.link slug display).render ++ rest =
      (Token.link (before ++ ['[', '['] ++ slug) display).render ++ rest := by
    simp [render_link, linkInner]
  rw [htext, matchWikilink_link hsound]
  exact Option.some_ne_none _

/-- So does an open display text. -/
theorem absorb_display {outer before slug rest : List Char} {display : Option (List Char)}
    (hne : outer ≠ []) (houter : ∀ c ∈ outer, c ≠ ']' ∧ c ≠ '|') (hbefore : ']' ∉ before)
    (h : (Token.link slug display).Sound) :
    matchWikilink (['[', '['] ++ (outer ++ '|' :: before) ++ (Token.link slug display).render ++ rest) ≠
      none := by
  have hsound : (Token.link outer (some (before ++ ['[', '['] ++ linkInner slug display))).Sound := by
    refine ⟨hne, houter, ?_⟩
    intro text htext hmem
    cases htext
    rw [List.mem_append, List.mem_append] at hmem
    rcases hmem with (hmem | hmem) | hmem
    · exact hbefore hmem
    · simp at hmem
    · exact linkInner_no_close h hmem
  have htext : ['[', '['] ++ (outer ++ '|' :: before) ++ (Token.link slug display).render ++ rest =
      (Token.link outer (some (before ++ ['[', '['] ++ linkInner slug display))).render ++ rest := by
    simp [render_link, linkInner]
  rw [htext, matchWikilink_link hsound]
  exact Option.some_ne_none _

/-- An unfinished link text that ends right before a link: the two are read as one link. -/
theorem absorbed {start slug rest outer tail : List Char} {display shown : Option (List Char)}
    (h : (Token.link slug display).Sound) (houter : (Token.link outer shown).Sound)
    (hinner : linkInner outer shown = start ++ tail) :
    matchWikilink (['[', '['] ++ start ++ (Token.link slug display).render ++ rest) ≠ none := by
  rcases List.append_eq_append_iff.mp hinner with ⟨more, hstart, hmore⟩ | ⟨more, hslug, -⟩
  · cases shown with
    | none =>
      obtain rfl : more = [] := by
        have : [] = more ++ tail := hmore
        simp_all
      rw [List.append_nil] at hstart
      exact absorb_slug (hstart ▸ houter.2.1) h
    | some text =>
      cases more with
      | nil =>
        rw [List.append_nil] at hstart
        exact absorb_slug (hstart ▸ houter.2.1) h
      | cons c more =>
        obtain ⟨rfl, htext⟩ := List.cons.inj (show '|' :: text = c :: (more ++ tail) from hmore)
        rw [hstart]
        refine absorb_display houter.1 houter.2.1 ?_ h
        intro hmem
        apply houter.2.2 text rfl
        rw [htext]
        exact List.mem_append_left _ hmem
  · refine absorb_slug ?_ h
    intro c hc
    exact houter.2.1 c (hslug ▸ List.mem_append_left _ hc)

/-- Text without brackets in the place of a link does not make a link of what stands before it. -/
theorem matchWikilink_unlink {before slug rest rest' text : List Char} {display : Option (List Char)}
    (h : (Token.link slug display).Sound) (hbefore : before ≠ []) (hne : text ≠ [])
    (hopen : '[' ∉ text) (hclose : ']' ∉ text)
    (hnone : matchWikilink (before ++ (Token.link slug display).render ++ rest) = none) :
    matchWikilink (before ++ text ++ rest') = none := by
  by_contra hsome
  obtain ⟨⟨outer, tail⟩, hsome⟩ := Option.ne_none_iff_exists'.mp hsome
  obtain ⟨houter, htext⟩ := matchWikilink_some hsome
  generalize displayOf ((before ++ text ++ rest').drop (2 + outer.length)) = shown at houter htext
  have hwhole : ∀ more, before ≠ (Token.link outer shown).render ++ more := by
    intro more heq
    have hmatch := @matchWikilink_link outer (more ++ (Token.link slug display).render ++ rest) shown
      houter
    rw [heq] at hnone
    simp only [List.append_assoc] at hnone hmatch
    rw [hnone] at hmatch
    cases hmatch
  rw [List.append_assoc] at htext
  rcases List.append_eq_append_iff.mp htext with ⟨more, hrender, hmore⟩ | ⟨more, heq, -⟩
  · cases more with
    | nil => exact hwhole [] (by simpa using hrender.symm)
    | cons c more =>
      obtain ⟨d, text, rfl⟩ := List.exists_cons_of_ne_nil hne
      obtain ⟨rfl, -⟩ := List.cons.inj hmore
      rw [render_link] at hrender
      -- the characters of the new link up to the one that the text contributes
      cases before with
      | nil => exact hbefore rfl
      | cons b before =>
        cases before with
        | nil => exact hopen (by simp_all)
        | cons b' start =>
          simp only [List.cons_append, List.cons.injEq, List.nil_append] at hrender
          obtain ⟨rfl, rfl, hinner⟩ := hrender
          rcases List.append_eq_append_iff.mp hinner.symm with ⟨tail', hstart, -⟩ | ⟨more', -, hclosing⟩
          · exact absorbed h houter hstart hnone
          · have hmem : d ∈ [']', ']'] := by
              rw [hclosing]
              simp
            obtain rfl : d = ']' := by simpa using hmem
            exact hclose List.mem_cons_self
  · exact hwhole more heq

end Unlinking

section Replacing

/-- A link with a text of its own gives way to that text. -/
def Token.unlink (textOf : Token → Option (List Char)) (t : Token) : List Token :=
  match textOf t with
  | some text => text.map .char
  | none => [t]

variable {textOf : Token → Option (List Char)} {ts : List Token}

theorem unlink_some {t : Token} {text : List Char} (h : textOf t = some text) :
    t.unlink textOf = text.map .char := by
  simp only [Token.unlink, h]

theorem unlink_none {t : Token} (h : textOf t = none) : t.unlink textOf = [t] := by
  simp only [Token.unlink, h]

theorem renderAll_chars (text : List Char) : renderAll (text.map .char) = text := by
  induction text with
  | nil => rfl
  | cons c text ih => rw [List.map_cons, renderAll_cons, ih, Token.render, List.singleton_append]

theorem renderAll_append (first second : List Token) :
    renderAll (first ++ second) = renderAll first ++ renderAll second := by
  rw [renderAll, List.flatMap_append]
  rfl

theorem Reads.chars_append {text : List Char} (hopen : '[' ∉ text) (h : Reads ts) :
    Reads (text.map .char ++ ts) := by
  induction text with
  | nil => exact h
  | cons c text ih =>
    refine .char ?_ (ih fun hmem => hopen (List.mem_cons_of_mem c hmem))
    have hc : c ≠ '[' := fun heq => hopen (heq ▸ List.mem_cons_self)
    unfold matchWikilink
    split
    · rename_i heq
      exact absurd (List.cons.inj heq).1 hc
    · rfl

/-- Only links have a text of their own, and that text can stand in a reading. -/
def Plainly (textOf : Token → Option (List Char)) (ts : List Token) : Prop :=
  ∀ t ∈ ts, ∀ text ∈ textOf t, t.slug?.isSome ∧ text ≠ [] ∧ '[' ∉ text ∧ ']' ∉ text

theorem Plainly.tail {t : Token} (h : Plainly textOf (t :: ts)) : Plainly textOf ts :=
  fun t' ht' => h t' (List.mem_cons_of_mem t ht')

theorem Reads.sound (h : Reads ts) {raw : List Char} {display : Option (List Char)}
    (hmem : Token.link raw display ∈ ts) : (Token.link raw display).Sound := by
  induction h with
  | nil => cases hmem
  | char hmatch hts ih =>
    rcases List.mem_cons.mp hmem with heq | hmem
    · cases heq
    · exact ih hmem
  | link hsound hts ih =>
    rcases List.mem_cons.mp hmem with heq | hmem
    · rw [heq]
      exact hsound
    · exact ih hmem

/-- The first link that gives way, with what stands before it. -/
theorem exists_first_unlinked (textOf : Token → Option (List Char)) (ts : List Token) :
    ts.flatMap (Token.unlink textOf) = ts ∨ ∃ before t after text, ts = before ++ t :: after ∧
      textOf t = some text ∧ ts.flatMap (Token.unlink textOf) =
        before ++ (text.map .char ++ after.flatMap (Token.unlink textOf)) := by
  induction ts with
  | nil => exact .inl rfl
  | cons t ts ih =>
    rw [List.flatMap_cons]
    cases htext : textOf t with
    | some text =>
      exact .inr ⟨[], t, ts, text, rfl, htext, by rw [unlink_some htext, List.nil_append]⟩
    | none =>
      rw [unlink_none htext]
      rcases ih with heq | ⟨before, t', after, text, rfl, htext', heq⟩
      · exact .inl (by rw [heq, List.singleton_append])
      · exact .inr ⟨t :: before, t', after, text, rfl, htext', by rw [heq]; rfl⟩

theorem Reads.char_unlink {c : Char} (hmatch : matchWikilink (c :: renderAll ts) = none) (h : Reads ts)
    (hplain : Plainly textOf ts) :
    matchWikilink (c :: renderAll (ts.flatMap (Token.unlink textOf))) = none := by
  rcases exists_first_unlinked textOf ts with heq | ⟨before, t, after, text, rfl, htext, heq⟩
  · rw [heq]
    exact hmatch
  · have hmem : t ∈ before ++ t :: after := by simp
    obtain ⟨hlink, hne, hopen, hclose⟩ := hplain t hmem text htext
    cases t with
    | char d => cases hlink
    | link raw display =>
      rw [renderAll_append, renderAll_cons, ← List.cons_append, ← List.append_assoc] at hmatch
      rw [heq, renderAll_append, renderAll_append, renderAll_chars, ← List.cons_append,
        ← List.append_assoc]
      exact matchWikilink_unlink (h.sound hmem) (List.cons_ne_nil _ _) hne hopen hclose hmatch

/-- What remains is a reading: no new link comes about. -/
theorem Reads.unlink (h : Reads ts) (hplain : Plainly textOf ts) :
    Reads (ts.flatMap (Token.unlink textOf)) := by
  induction h with
  | nil => exact .nil
  | @char c ts hmatch hts ih =>
    have hnone : textOf (.char c) = none := by
      cases htext : textOf (.char c) with
      | none => rfl
      | some text => cases (hplain _ List.mem_cons_self text htext).1
    rw [List.flatMap_cons, unlink_none hnone, List.singleton_append]
    exact .char (hts.char_unlink hmatch hplain.tail) (ih hplain.tail)
  | @link raw display ts hsound hts ih =>
    rw [List.flatMap_cons]
    cases htext : textOf (.link raw display) with
    | none =>
      rw [unlink_none htext, List.singleton_append]
      exact .link hsound (ih hplain.tail)
    | some text =>
      rw [unlink_some htext]
      exact (ih hplain.tail).chars_append (hplain _ List.mem_cons_self text htext).2.2.1

theorem mem_unlink {raw : List Char} {display : Option (List Char)} :
    Token.link raw display ∈ ts.flatMap (Token.unlink textOf) ↔
      Token.link raw display ∈ ts ∧ textOf (.link raw display) = none := by
  rw [List.mem_flatMap]
  constructor
  · rintro ⟨t, ht, hmem⟩
    cases htext : textOf t with
    | some text =>
      rw [unlink_some htext, List.mem_map] at hmem
      obtain ⟨c, -, heq⟩ := hmem
      cases heq
    | none =>
      rw [unlink_none htext, List.mem_singleton] at hmem
      subst hmem
      exact ⟨ht, htext⟩
  · rintro ⟨hmem, htext⟩
    exact ⟨_, hmem, by rw [unlink_none htext]; exact List.mem_singleton_self _⟩

/-- What a substitution has to find to put the texts in: the links that have one, no other text, and
nothing that starts inside a link. -/
structure Finds (found : List Char → Option (List Char × Nat))
    (textOf : Token → Option (List Char)) (ts : List Token) : Prop where
  hit : ∀ t ∈ ts, ∀ text, textOf t = some text → ∀ rest,
    found (t.render ++ rest) = some (text, t.render.length)
  only : ∀ cs, found cs ≠ none → ∃ slug display rest, (Token.link slug display).Sound ∧
    textOf (.link slug display) ≠ none ∧ cs = (Token.link slug display).render ++ rest
  inside : ∀ slug display, Token.link slug display ∈ ts →
    ∀ tail, tail <:+ (Token.link slug display).render.tail → tail ≠ [] →
      ∀ rest, found (tail ++ rest) = none

theorem Finds.tail {found : List Char → Option (List Char × Nat)} {t : Token}
    (h : Finds found textOf (t :: ts)) : Finds found textOf ts :=
  ⟨fun t' ht' => h.hit t' (List.mem_cons_of_mem t ht'), h.only,
    fun slug display hmem => h.inside slug display (List.mem_cons_of_mem t hmem)⟩

/-- The text of a sound link determines the link. -/
theorem render_append_inj {slug slug' rest rest' : List Char} {display display' : Option (List Char)}
    (h : (Token.link slug display).Sound) (h' : (Token.link slug' display').Sound)
    (heq : (Token.link slug display).render ++ rest = (Token.link slug' display').render ++ rest') :
    slug = slug' ∧ display = display' := by
  have hmatch := @matchWikilink_link slug rest display h
  rw [heq, matchWikilink_link h'] at hmatch
  cases hmatch
  have hdisplay := @displayOf_render slug rest display h
  rw [heq, displayOf_render h'] at hdisplay
  exact ⟨rfl, hdisplay.symm⟩

theorem render_ne_nil (t : Token) : t.render ≠ [] := by
  rcases t with c | ⟨slug, _ | display⟩ <;> exact List.cons_ne_nil _ _

theorem Finds.miss {found : List Char → Option (List Char × Nat)} {slug : List Char}
    {display : Option (List Char)} (h : Finds found textOf (.link slug display :: ts))
    (hsound : (Token.link slug display).Sound) (hnone : textOf (.link slug display) = none)
    (tail : List Char) (htail : tail <:+ (Token.link slug display).render) (hne : tail ≠ [])
    (rest : List Char) : found (tail ++ rest) = none := by
  obtain ⟨c, cs, hrender⟩ := List.exists_cons_of_ne_nil (render_ne_nil (.link slug display))
  rw [hrender] at htail
  rcases List.suffix_cons_iff.mp htail with rfl | hinside
  · by_contra hfound
    obtain ⟨slug', display', rest', hsound', htext, heq⟩ := h.only _ hfound
    rw [← hrender] at heq
    obtain ⟨rfl, rfl⟩ := render_append_inj hsound hsound' heq
    exact htext hnone
  · refine h.inside slug display List.mem_cons_self tail ?_ hne rest
    rw [hrender]
    exact hinside

/-- Such a substitution replaces the links by their texts. -/
theorem Finds.substitute {found : List Char → Option (List Char × Nat)} (h : Finds found textOf ts)
    (hreads : Reads ts) (hplain : Plainly textOf ts) :
    substitute found 0 (renderAll ts) = renderAll (ts.flatMap (Token.unlink textOf)) := by
  induction hreads with
  | nil => rfl
  | @char c ts hmatch hts ih =>
    have hnone : textOf (.char c) = none := by
      cases htext : textOf (.char c) with
      | none => rfl
      | some text => cases (hplain _ List.mem_cons_self text htext).1
    have hmiss : found ([c] ++ renderAll ts) = none := by
      by_contra hfound
      obtain ⟨slug, display, rest, hsound, -, heq⟩ := h.only _ hfound
      rw [List.singleton_append] at heq
      rw [heq, matchWikilink_link hsound] at hmatch
      cases hmatch
    rw [List.flatMap_cons, unlink_none hnone, renderAll_append, renderAll_cons,
      ← ih h.tail hplain.tail]
    apply substitute_miss
    intro tail htail hne
    rcases List.suffix_cons_iff.mp htail with rfl | hnil
    · exact hmiss
    · exact absurd (List.suffix_nil.mp hnil) hne
  | @link slug display ts hsound hts ih =>
    rw [List.flatMap_cons, renderAll_append, renderAll_cons, ← ih h.tail hplain.tail]
    cases htext : textOf (.link slug display) with
    | some text =>
      rw [unlink_some htext, renderAll_chars]
      exact substitute_hit (render_ne_nil _) (h.hit _ List.mem_cons_self text htext _)
    | none =>
      rw [unlink_none htext, renderAll_cons, show renderAll [] = [] from rfl, List.append_nil]
      exact substitute_miss fun tail htail hne => h.miss hsound htext tail htail hne _

end Replacing

section Cleanup

variable {slug : List Char} {ts : List Token}

/-- The first pass: links with a display text. -/
def displayText (slug : List Char) : Token → Option (List Char)
  | .link raw (some display) => if raw = slug then some display else none
  | _ => none

/-- The second pass: links without one. -/
def segmentText (slug segment : List Char) : Token → Option (List Char)
  | .link raw none => if raw = slug then some segment else none
  | _ => none

theorem keepDisplay_eq_substitute (opening : List Char) (skip : Nat) (cs : List Char) :
    keepDisplay opening skip cs = substitute
      (fun cs => (matchDisplay opening cs).map fun display =>
        (display, opening.length + display.length + 2)) skip cs := by
  induction cs generalizing skip with
  | nil => rfl
  | cons c cs ih =>
    rw [keepDisplay, substitute]
    split
    · exact ih _
    · cases matchDisplay opening (c :: cs) with
      | none => simp only [ih, Option.map_none]
      | some display =>
        simp only [ih, Option.map_some]
        rfl

theorem matchDisplay_link {display rest : List Char} (hne : display ≠ []) (hclose : ']' ∉ display) :
    matchDisplay (['[', '['] ++ slug ++ ['|']) ((Token.link slug (some display)).render ++ rest) =
      some display := by
  have htext : (Token.link slug (some display)).render ++ rest =
      (['[', '['] ++ slug ++ ['|']) ++ (display ++ ']' :: (']' :: rest)) := by
    simp [Token.render]
  have hstop : (display ++ ']' :: (']' :: rest)).takeWhile (· ≠ ']') = display := by
    apply takeWhile_append_stop
    · intro c hc
      have : c ≠ ']' := fun heq => hclose (heq ▸ hc)
      simpa using this
    · rfl
  rw [htext, matchDisplay, if_pos (by simp), List.drop_left]
  simp only [hstop, if_neg hne, ← List.drop_drop, List.drop_left]

theorem matchDisplay_some {display cs : List Char}
    (h : matchDisplay (['[', '['] ++ slug ++ ['|']) cs = some display) : ']' ∉ display ∧
      ∃ rest, cs = (Token.link slug (some display)).render ++ rest := by
  unfold matchDisplay at h
  split at h
  · rename_i hopening
    obtain ⟨after, rfl⟩ := List.isPrefixOf_iff_prefix.mp hopening
    simp only [← List.drop_drop, List.drop_left] at h
    split at h
    · cases h
    · split at h
      · rename_i tail hdrop
        cases h
        have hafter : after = after.takeWhile (· ≠ ']') ++ ']' :: ']' :: tail := by
          rw [← hdrop]
          exact (List.prefix_iff_eq_append.mp (List.takeWhile_prefix _)).symm
        refine ⟨fun hmem => by simpa using List.mem_takeWhile_imp hmem, tail, ?_⟩
        conv_lhs => rw [hafter]
        simp [Token.render]
      · cases h
  · cases h

theorem suffix_tail_render {raw tail : List Char} {display : Option (List Char)}
    (htail : tail <:+ (Token.link raw display).render.tail) (hne : tail ≠ []) :
    ∃ stem, tail = stem ++ [']'] ∧ (stem = [] ∨ ']' ∈ stem) := by
  have hrender : (Token.link raw display).render.tail =
      '[' :: linkInner raw display ++ [']'] ++ [']'] := by
    rw [render_link]
    simp
  rw [hrender] at htail
  rcases List.suffix_concat_iff.mp htail with rfl | ⟨stem, rfl, hstem⟩
  · exact absurd rfl hne
  · refine ⟨stem, rfl, ?_⟩
    rcases List.suffix_concat_iff.mp hstem with rfl | ⟨stem', rfl, -⟩
    · exact .inl rfl
    · exact .inr (by simp)

/-- What starts inside a link and has no closing bracket ends inside it. -/
theorem opening_inside {raw tail rest opening : List Char} {display : Option (List Char)}
    (hclose : ']' ∉ opening) (htail : tail <:+ (Token.link raw display).render.tail) (hne : tail ≠ [])
    (h : opening <+: tail ++ rest) : opening <:+: (Token.link raw display).render.tail := by
  rcases List.prefix_or_prefix_of_prefix h (List.prefix_append tail rest) with hstarts | hstarts
  · exact hstarts.isInfix.trans htail.isInfix
  · obtain ⟨stem, rfl, -⟩ := suffix_tail_render htail hne
    exact absurd (hstarts.subset (by simp)) hclose

theorem closing_inside {raw tail rest opening : List Char} {display : Option (List Char)}
    (hopening : opening ≠ []) (hclose : ']' ∉ opening)
    (htail : tail <:+ (Token.link raw display).render.tail) (hne : tail ≠ [])
    (h : opening ++ [']'] ++ [']'] <+: tail ++ rest) :
    opening ++ [']'] ++ [']'] <:+: (Token.link raw display).render.tail := by
  rcases List.prefix_or_prefix_of_prefix h (List.prefix_append tail rest) with hstarts | hstarts
  · exact hstarts.isInfix.trans htail.isInfix
  · obtain ⟨stem, rfl, hstem⟩ := suffix_tail_render htail hne
    rcases List.prefix_concat_iff.mp hstarts with heq | hstarts
    · rw [← heq]
      exact htail.isInfix
    · rcases List.prefix_concat_iff.mp hstarts with heq | hstarts
      · -- then the text before the last bracket would be without a bracket of its own
        obtain ⟨rfl, -⟩ := List.append_inj' heq rfl
        rcases hstem with hnil | hmem
        · exact absurd hnil hopening
        · exact absurd hmem hclose
      · exact absurd (hstarts.subset (by simp)) hclose

/-- The cleanup takes the token out if it is a link to `slug`: the link is spelled exactly so, the
text in its place is not empty and opens no bracket, and inside no link another one to `slug` seems to
start. -/
def Token.Removable (slug : String) : Token → Prop
  | .char _ => True
  | .link raw display =>
    (strip (String.ofList raw) = slug → raw = slug.toList ∧
      display.getD (lastSegment slug).toList ≠ [] ∧
      '[' ∉ display.getD (lastSegment slug).toList) ∧
    ¬ ("[[" ++ slug ++ "]]").toList <:+: (Token.link raw display).render.tail ∧
    ¬ ("[[" ++ slug ++ "|").toList <:+: (Token.link raw display).render.tail

instance (slug : String) : (t : Token) → Decidable (t.Removable slug)
  | .char _ => isTrue trivial
  | .link _ _ => inferInstanceAs (Decidable ((_ → _ ∧ _ ∧ _) ∧ _ ∧ _))

/-- A slug that a link can name. -/
def Linkable (slug : String) : Prop := Stripped slug ∧ ∀ c ∈ slug.toList, c ≠ ']' ∧ c ≠ '|'

section Passes

variable {slug : String}

theorem Linkable.sound (h : Linkable slug) {display : Option (List Char)}
    (hdisplay : ∀ text ∈ display, ']' ∉ text) : (Token.link slug.toList display).Sound := by
  refine ⟨fun hnil => h.1.2 ?_, h.2, hdisplay⟩
  rw [← String.ofList_toList (s := slug), hnil]

theorem Linkable.strip_toList (h : Linkable slug) : strip (String.ofList slug.toList) = slug := by
  rw [String.ofList_toList]
  exact h.1.1

theorem Linkable.no_close (h : Linkable slug) : ']' ∉ ['[', '['] ++ slug.toList := by
  intro hmem
  rcases List.mem_append.mp hmem with hmem | hmem
  · simp at hmem
  · exact (h.2 _ hmem).1 rfl

theorem displayText_some {slug text : List Char} {t : Token} (h : displayText slug t = some text) :
    t = .link slug (some text) := by
  rcases t with c | ⟨raw, _ | display⟩
  · cases h
  · cases h
  · simp only [displayText, Option.ite_none_right_eq_some, Option.some.injEq] at h
    rw [h.1, h.2]

theorem segmentText_some {slug segment text : List Char} {t : Token}
    (h : segmentText slug segment t = some text) : t = .link slug none ∧ text = segment := by
  rcases t with c | ⟨raw, _ | display⟩
  · cases h
  · simp only [segmentText, Option.ite_none_right_eq_some, Option.some.injEq] at h
    exact ⟨by rw [h.1], h.2.symm⟩
  · cases h

/-- A link to `slug` that the cleanup takes out. -/
theorem Linkable.replaced (hslug : Linkable slug) {display : Option (List Char)}
    (h : (Token.link slug.toList display).Removable slug) :
    display.getD (lastSegment slug).toList ≠ [] ∧ '[' ∉ display.getD (lastSegment slug).toList :=
  (h.1 hslug.strip_toList).2

theorem mem_of_mem_splitOn {sep c : Char} {cs segment : List Char} (h : segment ∈ cs.splitOn sep)
    (hc : c ∈ segment) : c ∈ cs := by
  induction cs generalizing segment with
  | nil =>
    rw [List.splitOn_nil, List.mem_singleton] at h
    rw [h] at hc
    exact hc
  | cons d cs ih =>
    rw [List.splitOn_cons_eq_if_modifyHead] at h
    split at h
    · rcases List.mem_cons.mp h with rfl | h
      · cases hc
      · exact List.mem_cons_of_mem d (ih h hc)
    · cases hsplit : cs.splitOn sep with
      | nil => exact absurd hsplit (List.splitOn_ne_nil sep cs)
      | cons first segments =>
        rw [hsplit] at h ih
        rcases List.mem_cons.mp h with rfl | h
        · rcases List.mem_cons.mp hc with rfl | hc
          · exact List.mem_cons_self
          · exact List.mem_cons_of_mem d (ih List.mem_cons_self hc)
        · exact List.mem_cons_of_mem d (ih (List.mem_cons_of_mem first h) hc)

theorem mem_lastSegment {c : Char} (h : c ∈ (lastSegment slug).toList) : c ∈ slug.toList := by
  unfold lastSegment split at h
  rw [List.getLast?_map] at h
  cases hlast : (slug.toList.splitOn '/').getLast? with
  | none =>
    rw [hlast] at h
    simp at h
  | some segment =>
    rw [hlast, Option.map_some, Option.getD_some, String.toList_ofList] at h
    exact mem_of_mem_splitOn (List.mem_of_getLast? hlast) h

theorem finds_display (hslug : Linkable slug) (hreads : Reads ts) (h : ∀ t ∈ ts, t.Removable slug) :
    Finds (fun cs => (matchDisplay (['[', '['] ++ slug.toList ++ ['|']) cs).map fun display =>
      (display, (['[', '['] ++ slug.toList ++ ['|']).length + display.length + 2))
      (displayText slug.toList) ts := by
  refine ⟨?_, ?_, ?_⟩
  · intro t ht text htext rest
    obtain rfl := displayText_some htext
    have hclose := (hreads.sound ht).2.2 text rfl
    have hne : text ≠ [] := (hslug.replaced (h _ ht)).1
    rw [matchDisplay_link hne hclose]
    simp only [Option.map_some, Token.render, Option.some.injEq, Prod.mk.injEq, true_and]
    simp
    omega
  · intro cs hfound
    rw [ne_eq, Option.map_eq_none_iff] at hfound
    obtain ⟨display, hdisplay⟩ := Option.ne_none_iff_exists'.mp hfound
    obtain ⟨hclose, rest, rfl⟩ := matchDisplay_some hdisplay
    refine ⟨slug.toList, some display, rest, hslug.sound ?_, by simp [displayText], rfl⟩
    intro text htext
    cases htext
    exact hclose
  · intro raw display hmem tail htail hne rest
    rw [Option.map_eq_none_iff, matchDisplay, if_neg]
    rw [List.isPrefixOf_iff_prefix]
    intro hopening
    apply (h _ hmem).2.2
    have hinside := opening_inside ?_ htail hne hopening
    · simpa using hinside
    · intro hclose
      rcases List.mem_append.mp hclose with hclose | hclose
      · exact hslug.no_close hclose
      · simp at hclose

theorem finds_segment (hslug : Linkable slug) (h : ∀ t ∈ ts, t.Removable slug) :
    Finds (fun cs => if ("[[" ++ slug ++ "]]").toList.isPrefixOf cs then
      some ((lastSegment slug).toList, ("[[" ++ slug ++ "]]").toList.length) else none)
      (segmentText slug.toList (lastSegment slug).toList) ts := by
  have hrender : ("[[" ++ slug ++ "]]").toList = (Token.link slug.toList none).render := by
    simp [Token.render]
  refine ⟨?_, ?_, ?_⟩
  · intro t ht text htext rest
    obtain ⟨rfl, rfl⟩ := segmentText_some htext
    rw [hrender, if_pos (List.isPrefixOf_iff_prefix.mpr (List.prefix_append _ _))]
  · intro cs hfound
    rw [ne_eq, ite_eq_right_iff, Classical.not_imp, List.isPrefixOf_iff_prefix, hrender] at hfound
    obtain ⟨⟨rest, rfl⟩, -⟩ := hfound
    exact ⟨slug.toList, none, rest, hslug.sound (by simp), by simp [segmentText], rfl⟩
  · intro raw display hmem tail htail hne rest
    rw [if_neg]
    rw [List.isPrefixOf_iff_prefix]
    intro hclosing
    apply (h _ hmem).2.1
    have htext : ("[[" ++ slug ++ "]]").toList = ['[', '['] ++ slug.toList ++ [']'] ++ [']'] := by simp
    rw [htext] at hclosing ⊢
    exact closing_inside (by simp) hslug.no_close htail hne hclosing

/-- The text after the cleanup reads as before, without the links to `slug`. -/
theorem scrub_reads (hslug : Linkable slug) (hreads : Reads ts) (h : ∀ t ∈ ts, t.Removable slug) :
    ∃ ts', Reads ts' ∧ scrub slug (String.ofList (renderAll ts)) = String.ofList (renderAll ts') ∧
      ∀ raw display, Token.link raw display ∈ ts' ↔ Token.link raw display ∈ ts ∧ raw ≠ slug.toList := by
  have hdisplays : Plainly (displayText slug.toList) ts := by
    intro t ht text htext
    obtain rfl := displayText_some htext
    exact ⟨rfl, (hslug.replaced (h _ ht)).1, (hslug.replaced (h _ ht)).2,
      (hreads.sound ht).2.2 text rfl⟩
  have hreads' := hreads.unlink hdisplays
  have hremovable : ∀ t ∈ ts.flatMap (Token.unlink (displayText slug.toList)), t.Removable slug := by
    intro t ht
    cases t with
    | char c => trivial
    | link raw display => exact h _ (mem_unlink.mp ht).1
  have hsegments : Plainly (segmentText slug.toList (lastSegment slug).toList)
      (ts.flatMap (Token.unlink (displayText slug.toList))) := by
    intro t ht text htext
    obtain ⟨rfl, rfl⟩ := segmentText_some htext
    refine ⟨rfl, (hslug.replaced (hremovable _ ht)).1, (hslug.replaced (hremovable _ ht)).2, ?_⟩
    exact fun hclose => (hslug.2 _ (mem_lastSegment hclose)).1 rfl
  refine ⟨_, hreads'.unlink hsegments, ?_, ?_⟩
  · rw [scrub, String.toList_ofList, String.toList_ofList, keepDisplay_eq_substitute,
      (finds_display hslug hreads h).substitute hreads hdisplays, replace, String.toList_ofList,
      replaceChars_eq_substitute,
      (finds_segment hslug hremovable).substitute hreads' hsegments]
  · intro raw display
    rw [mem_unlink, mem_unlink, and_assoc]
    apply and_congr_right
    intro hmem
    cases display <;> simp [displayText, segmentText]

/-- The cleanup takes out the links to `slug` and no other. -/
theorem mem_extractWikilinks_scrub (hslug : Linkable slug) {contentMd : String}
    (h : ∀ t ∈ tokens contentMd.length contentMd.toList, t.Removable slug) {target : String} :
    target ∈ extractWikilinks (scrub slug contentMd) ↔
      target ∈ extractWikilinks contentMd ∧ target ≠ slug := by
  obtain ⟨hreads, hrender⟩ := @tokens_reads contentMd.length contentMd.toList
    (by rw [String.length_toList])
  obtain ⟨ts', hreads', hscrub, hlinks⟩ := scrub_reads hslug hreads h
  rw [hrender, String.ofList_toList] at hscrub
  have hcontent : contentMd = String.ofList (renderAll (tokens contentMd.length contentMd.toList)) := by
    rw [hrender, String.ofList_toList]
  conv_rhs => rw [hcontent]
  rw [hscrub, hreads'.mem_extractWikilinks, hreads.mem_extractWikilinks, yields, yields]
  constructor
  · rintro ⟨hne, raw, display, hmem, rfl⟩
    obtain ⟨hmem, hraw⟩ := (hlinks raw display).mp hmem
    refine ⟨⟨hne, raw, display, hmem, rfl⟩, fun heq => hraw ?_⟩
    exact ((h _ hmem).1 heq).1
  · rintro ⟨⟨hne, raw, display, hmem, rfl⟩, htarget⟩
    refine ⟨hne, raw, display, (hlinks raw display).mpr ⟨hmem, ?_⟩, rfl⟩
    rintro rfl
    exact htarget hslug.strip_toList

end Passes

end Cleanup

end Cygnus.Wiki
