import ApiSurface.Annotations.Filter
import ApiSurface.Proofs.Text.Blank

/-!
The grammar of filters, and that it is what is read.

A source is laid out in blanks, a name, blanks and, if there are attributes, a body in parentheses
and blanks again. No character that ends one part can go on with the part before it, so a source has
one layout at most. Reading finds the layout, cuts the body at its commas and takes one attribute
from every piece that is not blank.
-/

namespace ApiSurface.Filter

open Text

/-- A letter, `_` or `$`, and then word characters and `$`. -/
inductive IsIdentifier : List Char → Prop where
  | mk (c : Char) (cs : List Char) (start : c.isAlpha = true ∨ c = '_' ∨ c = '$')
      (further : ∀ d ∈ cs, isWord d = true ∨ d = '$') : IsIdentifier (c :: cs)

/-- Identifiers with dots between them. -/
def IsName (cs : List Char) : Prop :=
  ∃ ids : List (List Char), ids ≠ [] ∧ (∀ id ∈ ids, IsIdentifier id) ∧ cs = ['.'].intercalate ids

/-- The attribute is written in the piece: its name and its value are the texts before and after the
first `=`, without the blanks on their sides. -/
structure Spells (piece : List Char) (a : Attribute) : Prop where
  around : ∃ before after, piece = before ++ '=' :: after ∧ '=' ∉ before ∧
    Trims before a.name.toList ∧ Trims after a.value.toList
  name : a.name ≠ ""
  value : a.value ≠ ""

/-- The attributes are written in the pieces, one in every piece that is not blank. -/
inductive SpellsAll : List (List Char) → List Attribute → Prop where
  | nil : SpellsAll [] []
  | blank {piece : List Char} {pieces : List (List Char)} {as : List Attribute}
      (trims : Trims piece []) (rest : SpellsAll pieces as) : SpellsAll (piece :: pieces) as
  | spelled {piece core : List Char} {pieces : List (List Char)} {a : Attribute}
      {as : List Attribute} (trims : Trims piece core) (spells : Spells core a)
      (rest : SpellsAll pieces as) : SpellsAll (piece :: pieces) (a :: as)

/-- The attributes are written in the pieces between the commas of the body. -/
def SpelledIn (body : List Char) (as : List Attribute) : Prop :=
  ∃ pieces : List (List Char), pieces ≠ [] ∧ (∀ piece ∈ pieces, ',' ∉ piece) ∧
    body = [','].intercalate pieces ∧ SpellsAll pieces as

/-- The parts of a source: blanks, a name, blanks, and a group if there is one. A group is a body in
parentheses and the blanks after it. Without a group all blanks after the name are one run. -/
structure Layout where
  lead : List Char
  name : List Char
  gap : List Char
  group : Option (List Char × List Char)

namespace Layout

/-- The body in its parentheses with the blanks after it. -/
def groupText (l : Layout) : List Char :=
  match l.group with
  | some (body, tail) => '(' :: (body ++ ')' :: tail)
  | none => []

/-- The source with these parts. -/
def source (l : Layout) : List Char := l.lead ++ (l.name ++ (l.gap ++ l.groupText))

/-- The parts are what they are called, and the body is on one line. -/
structure Valid (l : Layout) : Prop where
  lead : IsRun isBlank l.lead
  name : IsName l.name
  gap : IsRun isBlank l.gap
  body : ∀ body tail, l.group = some (body, tail) → '\n' ∉ body
  tail : ∀ body tail, l.group = some (body, tail) → IsRun isBlank tail

/-- The filter has the name in the layout and the attributes in its body. -/
structure Gives (l : Layout) (f : Filter) : Prop where
  name : f.name.toList = l.name
  plain : l.group = none → f.attributes = []
  attributed : ∀ body tail, l.group = some (body, tail) → SpelledIn body f.attributes

end Layout

section Characters

variable {c : Char}

theorem isStart_iff : isStart c = true ↔ c.isAlpha = true ∨ c = '_' ∨ c = '$' := by
  simp [isStart, or_assoc]

theorem isContinue_iff : isContinue c = true ↔ isWord c = true ∨ c = '$' := by
  simp [isContinue]

theorem isContinue_of_isBlank (h : isBlank c = true) : isContinue c = false := by
  rw [Bool.eq_false_iff]
  intro hcontinue
  rcases isContinue_iff.mp hcontinue with hword | rfl
  · exact Bool.false_ne_true ((isWord_of_isBlank h).symm.trans hword)
  · exact absurd h (by decide)

theorem isBlank_of_isStart (h : isStart c = true) : isBlank c = false := by
  have hrange : 0x24 ≤ c.toNat ∧ c.toNat ≤ 0x7A := by
    rcases isStart_iff.mp h with halpha | rfl | rfl
    · rcases Bool.or_eq_true_iff.mp halpha with hupper | hlower
      · obtain ⟨hge, hle⟩ : 'A'.toNat ≤ c.toNat ∧ c.toNat ≤ 'Z'.toNat := of_decide_eq_true hupper
        exact ⟨Nat.le_trans (by decide) hge, Nat.le_trans hle (by decide)⟩
      · obtain ⟨hge, hle⟩ : 'a'.toNat ≤ c.toNat ∧ c.toNat ≤ 'z'.toNat :=
          (Bool.and_eq_true_iff.mp hlower).imp of_decide_eq_true of_decide_eq_true
        exact ⟨Nat.le_trans (by decide) hge, Nat.le_trans hle (by decide)⟩
    · decide
    · decide
  have hstart : within [(0x24, 0x7A)] c = true :=
    within_iff.mpr ⟨_, List.mem_singleton_self _, hrange⟩
  exact within_eq_false_of_apart (by decide) hstart

theorem isContinue_dot : isContinue '.' = false := by decide +kernel

theorem isContinue_paren : isContinue '(' = false := by decide +kernel

end Characters

section Name

variable {cs rest : List Char}

/-- What can follow the first character of a name: characters of an identifier, and dots that start
another one. -/
inductive Continues : List Char → Prop where
  | nil : Continues []
  | word {c : Char} {cs : List Char} (continues : isContinue c = true) (rest : Continues cs) :
      Continues (c :: cs)
  | dot {d : Char} {cs : List Char} (starts : isStart d = true) (rest : Continues cs) :
      Continues ('.' :: d :: cs)

theorem Continues.append (hcs : IsRun isContinue cs) (hrest : Continues rest) :
    Continues (cs ++ rest) := by
  induction cs with
  | nil => exact hrest
  | cons c cs ih =>
    obtain ⟨hc, hcs⟩ := List.forall_mem_cons.mp hcs
    exact .word hc (ih hcs)

theorem isIdentifier_iff :
    IsIdentifier cs ↔ ∃ c ds, cs = c :: ds ∧ isStart c = true ∧ IsRun isContinue ds := by
  simp only [IsRun, isStart_iff, isContinue_iff]
  constructor
  · rintro ⟨c, ds, start, further⟩
    exact ⟨c, ds, rfl, start, further⟩
  · rintro ⟨c, ds, rfl, start, further⟩
    exact .mk c ds start further

theorem intercalate_cons (separator : List Char) (c : Char) (cs : List Char)
    (ids : List (List Char)) :
    separator.intercalate ((c :: cs) :: ids) = c :: separator.intercalate (cs :: ids) := by
  cases ids with
  | nil => rw [List.intercalate_singleton, List.intercalate_singleton]
  | cons id ids => simp only [List.intercalate_cons_cons, List.cons_append]

theorem exists_continues_of_isName (h : IsName cs) :
    ∃ c ds, cs = c :: ds ∧ isStart c = true ∧ Continues ds := by
  obtain ⟨ids, hne, hids, rfl⟩ := h
  induction ids with
  | nil => exact absurd rfl hne
  | cons id ids ih =>
    obtain ⟨hid, hrest⟩ := List.forall_mem_cons.mp hids
    obtain ⟨c, ds, rfl, hstart, hcontinue⟩ := isIdentifier_iff.mp hid
    refine ⟨c, _, intercalate_cons _ c ds ids, hstart, ?_⟩
    cases ids with
    | nil =>
      rw [List.intercalate_singleton, ← List.append_nil ds]
      exact .append hcontinue .nil
    | cons id' ids =>
      obtain ⟨d, es, htail, hd, hes⟩ := ih (List.cons_ne_nil _ _) hrest
      rw [List.intercalate_cons_cons, htail, List.append_assoc]
      exact .append hcontinue (.dot hd hes)

theorem isName_of_continues {c : Char} (hstart : isStart c = true) (h : Continues cs) :
    IsName (c :: cs) := by
  induction h generalizing c with
  | nil =>
    refine ⟨[[c]], List.cons_ne_nil _ _, ?_, List.intercalate_singleton.symm⟩
    rintro id hid
    obtain rfl := List.mem_singleton.mp hid
    exact isIdentifier_iff.mpr ⟨c, [], rfl, hstart, nofun⟩
  | @word d ds hd _ ih =>
    -- The character goes into the first identifier, behind the one that starts it.
    obtain ⟨ids, hne, hids, hcs⟩ := ih hstart
    obtain ⟨id, ids, rfl⟩ := List.exists_cons_of_ne_nil hne
    obtain ⟨hid, hrest⟩ := List.forall_mem_cons.mp hids
    obtain ⟨e, es, rfl, he, hes⟩ := isIdentifier_iff.mp hid
    rw [intercalate_cons, List.cons.injEq] at hcs
    refine ⟨(c :: d :: es) :: ids, List.cons_ne_nil _ _, ?_, ?_⟩
    · refine List.forall_mem_cons.mpr ⟨isIdentifier_iff.mpr ⟨c, d :: es, rfl, hstart, ?_⟩, hrest⟩
      exact List.forall_mem_cons.mpr ⟨hd, hes⟩
    · rw [intercalate_cons, intercalate_cons, ← hcs.2]
  | @dot d ds hd _ ih =>
    obtain ⟨ids, hne, hids, hcs⟩ := ih hd
    obtain ⟨id, ids, rfl⟩ := List.exists_cons_of_ne_nil hne
    refine ⟨[c] :: id :: ids, List.cons_ne_nil _ _, ?_, ?_⟩
    · refine List.forall_mem_cons.mpr ⟨isIdentifier_iff.mpr ⟨c, [], rfl, hstart, nofun⟩, hids⟩
    · rw [List.intercalate_cons_cons, ← hcs]
      rfl

theorem scanName_word {c : Char} (hc : isContinue c = true) (cs : List Char) :
    scanName (c :: cs) = (c :: (scanName cs).1, (scanName cs).2) := by
  cases cs <;> simp [scanName, hc]

theorem scanName_dot {d : Char} (hd : isStart d = true) (cs : List Char) :
    scanName ('.' :: d :: cs) = ('.' :: d :: (scanName cs).1, (scanName cs).2) := by
  simp [scanName, isContinue_dot, hd]

theorem scanName_stop (h : ∀ c ∈ cs.head?, isContinue c = false ∧ c ≠ '.') :
    scanName cs = ([], cs) := by
  rcases cs with _ | ⟨c, _ | ⟨d, cs⟩⟩
  · rfl
  · simp [scanName, (h c rfl).1]
  · simp [scanName, (h c rfl).1, (h c rfl).2]

/-- A scan stops where the name does. -/
theorem scanName_append (hcs : Continues cs)
    (hrest : ∀ c ∈ rest.head?, isContinue c = false ∧ c ≠ '.') :
    scanName (cs ++ rest) = (cs, rest) := by
  induction hcs with
  | nil => exact scanName_stop hrest
  | word hc _ ih => rw [List.cons_append, scanName_word hc, ih]
  | dot hd _ ih => rw [List.cons_append, List.cons_append, scanName_dot hd, ih]

theorem continues_scanName (cs : List Char) :
    Continues (scanName cs).1 ∧ cs = (scanName cs).1 ++ (scanName cs).2 := by
  fun_induction scanName cs with
  | case1 => exact ⟨.nil, rfl⟩
  | case2 c hc => exact ⟨.word hc .nil, rfl⟩
  | case3 c hc => exact ⟨.nil, rfl⟩
  | case4 c d cs hc name rest hscan ih =>
    rw [hscan] at ih
    exact ⟨.word hc ih.1, congrArg (c :: ·) ih.2⟩
  | case5 c d cs hc hdot name rest hscan ih =>
    rw [hscan] at ih
    rw [Bool.and_eq_true, beq_iff_eq] at hdot
    obtain ⟨rfl, hd⟩ := hdot
    exact ⟨.dot hd ih.1, congrArg ('.' :: d :: ·) ih.2⟩
  | case6 c d cs hc hdot => exact ⟨.nil, rfl⟩

end Name

section Body

theorem body?_eq_some_iff {cs body : List Char} :
    body? cs = some body ↔ '\n' ∉ body ∧ ∃ tail, IsRun isBlank tail ∧ cs = body ++ ')' :: tail := by
  have hreverse : ∀ inner, (dropEndWhile isBlank cs).reverse = ')' :: inner ↔
      ∃ tail, IsRun isBlank tail ∧ cs = inner.reverse ++ ')' :: tail := by
    intro inner
    rw [List.reverse_eq_iff, dropEndWhile_eq_iff, List.reverse_cons, and_iff_right]
    · simp only [List.append_assoc, List.singleton_append]
    · intro c hc
      rw [List.getLast?_concat, Option.mem_some_iff] at hc
      rw [← hc]
      decide
  rw [body?]
  constructor
  · intro h
    split at h
    · next inner hinner =>
      split_ifs at h with hline
      obtain rfl := Option.some.inj h
      refine ⟨?_, (hreverse inner).mp hinner⟩
      simpa using hline
    · cases h
  · rintro ⟨hline, htail⟩
    rw [← List.reverse_reverse body] at htail
    rw [(hreverse body.reverse).mpr htail]
    simp [hline]

theorem attribute?_append {before : List Char} (hbefore : '=' ∉ before) (after : List Char) :
    attribute? (before ++ '=' :: after) =
      if (trim before).isEmpty || (trim after).isEmpty then none
      else some ⟨String.ofList (trim before), String.ofList (trim after)⟩ := by
  have hrun : ∀ c ∈ before, decide (c ≠ '=') = true := by
    intro c hc
    exact decide_eq_true fun h => hbefore (h ▸ hc)
  rw [attribute?, List.dropWhile_append_of_pos hrun, List.takeWhile_append_of_pos hrun]
  simp

theorem attribute?_of_not_mem {piece : List Char} (h : '=' ∉ piece) : attribute? piece = none := by
  have hnone : piece.dropWhile (· ≠ '=') = [] := by
    rw [List.dropWhile_eq_nil_iff]
    intro c hc
    exact decide_eq_true fun heq => h (heq ▸ hc)
  rw [attribute?, hnone]

theorem attribute?_eq_some_iff {piece : List Char} {a : Attribute} :
    attribute? piece = some a ↔ Spells piece a := by
  constructor
  · intro h
    by_cases hmem : '=' ∈ piece
    · obtain ⟨before, after, rfl, hbefore⟩ := List.eq_append_cons_of_mem hmem
      rw [attribute?_append hbefore] at h
      split_ifs at h with hempty
      obtain rfl := Option.some.inj h
      have hboth : trim before ≠ [] ∧ trim after ≠ [] := by simpa using hempty
      refine ⟨⟨before, after, rfl, hbefore, ?_, ?_⟩, ?_, ?_⟩
      · exact trim_eq_iff.mp String.toList_ofList.symm
      · exact trim_eq_iff.mp String.toList_ofList.symm
      · simpa using hboth.1
      · simpa using hboth.2
    · rw [attribute?_of_not_mem hmem] at h
      cases h
  · rintro ⟨⟨before, after, rfl, hbefore, hname, hvalue⟩, hname', hvalue'⟩
    rw [attribute?_append hbefore, trim_eq_iff.mpr hname, trim_eq_iff.mpr hvalue]
    simp [hname', hvalue']

theorem mapM_attribute?_eq_some_iff {pieces : List (List Char)} {as : List Attribute} :
    ((pieces.map trim).filter (!·.isEmpty)).mapM attribute? = some as ↔ SpellsAll pieces as := by
  constructor
  · intro h
    induction pieces generalizing as with
    | nil =>
      obtain rfl : [] = as := by simpa using h
      exact .nil
    | cons piece pieces ih =>
      by_cases hblank : trim piece = []
      · rw [List.map_cons, List.filter_cons_of_neg (by simp [hblank])] at h
        exact .blank (trim_eq_iff.mp hblank) (ih h)
      · rw [List.map_cons, List.filter_cons_of_pos (by simp [hblank]), List.mapM_cons] at h
        simp only [Option.bind_eq_bind, Option.bind_eq_some_iff, Option.pure_def,
          Option.some.injEq] at h
        obtain ⟨a, ha, as', has, rfl⟩ := h
        exact .spelled (trim_eq_iff.mp rfl) (attribute?_eq_some_iff.mp ha) (ih has)
  · intro h
    induction h with
    | nil => rfl
    | blank htrims _ ih =>
      rw [List.map_cons, trim_eq_iff.mpr htrims, List.filter_cons_of_neg (by simp)]
      exact ih
    | spelled htrims hspells _ ih =>
      rw [List.map_cons, trim_eq_iff.mpr htrims, List.filter_cons_of_pos, List.mapM_cons,
        attribute?_eq_some_iff.mpr hspells, ih]
      · rfl
      · obtain ⟨before, after, rfl, _⟩ := hspells.around
        simp

theorem not_mem_of_mem_splitOn {c : Char} {cs piece : List Char} (h : piece ∈ cs.splitOn c) :
    c ∉ piece := by
  induction cs generalizing piece with
  | nil =>
    rw [List.splitOn_nil, List.mem_singleton] at h
    rw [h]
    exact List.not_mem_nil
  | cons d cs ih =>
    rw [List.splitOn_cons_eq_if_modifyHead] at h
    split_ifs at h with hd
    · rcases List.mem_cons.mp h with rfl | h
      · exact List.not_mem_nil
      · exact ih h
    · obtain ⟨first, more, hsplit⟩ := List.exists_cons_of_ne_nil (List.splitOn_ne_nil c cs)
      rw [hsplit] at h ih
      rw [List.modifyHead_cons] at h
      rcases List.mem_cons.mp h with rfl | h
      · rw [List.mem_cons, not_or]
        exact ⟨fun heq => hd (beq_iff_eq.mpr heq.symm), ih List.mem_cons_self⟩
      · exact ih (List.mem_cons_of_mem _ h)

theorem attributes?_eq_some_iff {body : List Char} {as : List Attribute} :
    attributes? body = some as ↔ SpelledIn body as := by
  rw [attributes?, mapM_attribute?_eq_some_iff]
  constructor
  · intro h
    exact ⟨body.splitOn ',', List.splitOn_ne_nil _ _, fun _ => not_mem_of_mem_splitOn,
      (List.intercalate_splitOn ',').symm, h⟩
  · rintro ⟨pieces, hne, hpieces, rfl, h⟩
    rwa [List.splitOn_intercalate ',' hpieces hne]

end Body

namespace Layout.Valid

variable {l l' : Layout}

theorem startsOutside_groupText (l : Layout) : StartsOutside isBlank l.groupText := by
  rw [groupText]
  rcases l.group with _ | ⟨body, tail⟩
  · nofun
  · rintro c ⟨⟩
    decide

/-- A name ends where blanks or a parenthesis follow. -/
theorem exists_name (h : l.Valid) : ∃ c cs, l.name = c :: cs ∧ isStart c = true ∧
    scanName (cs ++ (l.gap ++ l.groupText)) = (cs, l.gap ++ l.groupText) := by
  obtain ⟨c, cs, hname, hstart, hcontinues⟩ := exists_continues_of_isName h.name
  refine ⟨c, cs, hname, hstart, scanName_append hcontinues ?_⟩
  have hgap := h.gap
  rcases hl : l.gap with _ | ⟨d, ds⟩
  · rw [groupText]
    rcases l.group with _ | ⟨body, tail⟩
    · nofun
    · rintro d ⟨⟩
      exact ⟨isContinue_paren, by decide⟩
  · rintro e ⟨⟩
    have hblank : isBlank d = true := hgap d (by rw [hl]; exact List.mem_cons_self)
    refine ⟨isContinue_of_isBlank hblank, ?_⟩
    rintro rfl
    exact absurd hblank (by decide)

theorem startsOutside_name (h : l.Valid) :
    StartsOutside isBlank (l.name ++ (l.gap ++ l.groupText)) := by
  obtain ⟨c, cs, hname, hstart, _⟩ := h.exists_name
  rw [hname]
  rintro d ⟨⟩
  exact isBlank_of_isStart hstart

theorem body?_eq {body tail : List Char} (h : l.Valid) (hgroup : l.group = some (body, tail)) :
    body? (body ++ ')' :: tail) = some body :=
  body?_eq_some_iff.mpr ⟨h.body body tail hgroup, tail, h.tail body tail hgroup, rfl⟩

theorem group_eq (h : l.Valid) (h' : l'.Valid) (htext : l.groupText = l'.groupText) :
    l.group = l'.group := by
  rw [groupText, groupText] at htext
  rcases hl : l.group with _ | ⟨body, tail⟩ <;> rcases hl' : l'.group with _ | ⟨body', tail'⟩ <;>
    rw [hl, hl'] at htext
  · cases htext
  · cases htext
  · have hinner : body ++ ')' :: tail = body' ++ ')' :: tail' := (List.cons.inj htext).2
    have hbody := h.body?_eq hl
    rw [hinner, h'.body?_eq hl', Option.some.injEq] at hbody
    rw [hbody, List.append_cancel_left_eq, List.cons.injEq] at hinner
    rw [hbody, hinner.2]

/-- Every part of a layout can be read off the source. -/
theorem unique (h : l.Valid) (h' : l'.Valid) (hsource : l.source = l'.source) : l = l' := by
  obtain ⟨hlead, hnamed⟩ :=
    run_append_inj h.lead h'.lead h.startsOutside_name h'.startsOutside_name hsource
  obtain ⟨c, cs, hname, _, hscan⟩ := h.exists_name
  obtain ⟨c', cs', hname', _, hscan'⟩ := h'.exists_name
  rw [hname, hname', List.cons_append, List.cons_append, List.cons.injEq] at hnamed
  rw [hnamed.2, hscan', Prod.mk.injEq] at hscan
  obtain ⟨hgap, htext⟩ := run_append_inj h'.gap h.gap (startsOutside_groupText l')
    (startsOutside_groupText l) hscan.2
  have hgroup := h'.group_eq h htext
  rw [hnamed.1, ← hscan.1, ← hname'] at hname
  cases l
  cases l'
  simp_all

theorem ofChars?_source (h : l.Valid) :
    ofChars? l.source = match l.group with
      | some (body, _) => (attributes? body).map fun as => ⟨String.ofList l.name, as⟩
      | none => some ⟨String.ofList l.name, []⟩ := by
  obtain ⟨c, cs, hname, hstart, hscan⟩ := h.exists_name
  have hlead : l.source.dropWhile isBlank = c :: (cs ++ (l.gap ++ l.groupText)) := by
    rw [dropWhile_eq_iff, ← List.cons_append, ← hname]
    exact ⟨h.startsOutside_name, l.lead, h.lead, rfl⟩
  have hgap : (l.gap ++ l.groupText).dropWhile isBlank = l.groupText :=
    dropWhile_eq_iff.mpr ⟨startsOutside_groupText l, l.gap, h.gap, rfl⟩
  rw [ofChars?, hlead]
  simp only [hstart, hscan, hgap, if_true, ← hname]
  rw [groupText]
  rcases hgroup : l.group with _ | ⟨body, tail⟩
  · rfl
  · simp only [h.body?_eq hgroup, Option.bind_eq_bind, Option.bind_some]
    cases attributes? body <;> rfl

end Layout.Valid

theorem exists_layout {cs : List Char} {f : Filter} (h : ofChars? cs = some f) :
    ∃ l : Layout, l.Valid ∧ l.source = cs := by
  rw [ofChars?] at h
  split at h
  · cases h
  · next c ds hlead =>
    split_ifs at h with hstart
    obtain ⟨_, lead, hrun, rfl⟩ := dropWhile_eq_iff.mp hlead
    obtain ⟨hcontinues, hds⟩ := continues_scanName ds
    rcases hscan : scanName ds with ⟨name, rest⟩
    rw [hscan] at hcontinues hds
    obtain rfl := hds
    have hname := isName_of_continues hstart hcontinues
    simp only [hscan] at h
    split at h
    · next hrest =>
      obtain ⟨_, gap, hgap, rfl⟩ := dropWhile_eq_iff.mp hrest
      exact ⟨⟨lead, c :: name, gap, none⟩, ⟨hrun, hname, hgap, nofun, nofun⟩, rfl⟩
    · next inner hrest =>
      obtain ⟨_, gap, hgap, rfl⟩ := dropWhile_eq_iff.mp hrest
      obtain ⟨body, hbody, _⟩ := Option.bind_eq_some_iff.mp h
      obtain ⟨hline, tail, htail, rfl⟩ := body?_eq_some_iff.mp hbody
      refine ⟨⟨lead, c :: name, gap, some (body, tail)⟩, ⟨hrun, hname, hgap, ?_, ?_⟩, rfl⟩
      · rintro _ _ ⟨⟩
        exact hline
      · rintro _ _ ⟨⟩
        exact htail
    · cases h

theorem Layout.gives_iff {l : Layout} (h : l.Valid) {f : Filter} :
    ofChars? l.source = some f ↔ l.Gives f := by
  rw [h.ofChars?_source]
  obtain ⟨name, attributes⟩ := f
  rcases hgroup : l.group with _ | ⟨body, tail⟩
  · simp only [Option.some.injEq, Filter.mk.injEq]
    constructor
    · rintro ⟨rfl, rfl⟩
      refine ⟨String.toList_ofList, fun _ => rfl, fun body tail hbody => ?_⟩
      rw [hgroup] at hbody
      cases hbody
    · rintro ⟨hname, hplain, _⟩
      exact ⟨hname ▸ String.ofList_toList, (hplain hgroup).symm⟩
  · simp only [Option.map_eq_some_iff, attributes?_eq_some_iff, Filter.mk.injEq]
    constructor
    · rintro ⟨as, has, rfl, rfl⟩
      refine ⟨String.toList_ofList, fun hnone => ?_, fun body' tail' hbody => ?_⟩
      · rw [hgroup] at hnone
        cases hnone
      · rw [hgroup] at hbody
        cases hbody
        exact has
    · rintro ⟨hname, _, hattributed⟩
      exact ⟨attributes, hattributed body tail hgroup, hname ▸ String.ofList_toList, rfl⟩

/-- A filter is read from a source exactly if the source has a layout that gives it. A source has at
most one layout, in which the last closing parenthesis ends the body. Any other source is reported
as it was written. -/
theorem parse_eq_ok_iff (source : String) :
    (∀ f, parse source = .ok f ↔
      ∃ l : Layout, l.source = source.toList ∧ l.Valid ∧ l.Gives f) ∧
    (∀ l l' : Layout, l.source = source.toList → l'.source = source.toList → l.Valid → l'.Valid →
      l = l') ∧
    (∀ l : Layout, l.Valid → ∀ body tail, l.group = some (body, tail) → ')' ∉ tail) ∧
    ∀ e, parse source = .error e → e = .invalidAnnotationFilter source := by
  refine ⟨?_, ?_, ?_, ?_⟩
  · intro f
    have hread : parse source = .ok f ↔ ofChars? source.toList = some f := by
      rw [parse]
      cases ofChars? source.toList <;> simp
    rw [hread]
    constructor
    · intro h
      obtain ⟨l, hl, hsource⟩ := exists_layout h
      rw [← hsource, Layout.gives_iff hl] at h
      exact ⟨l, hsource, hl, h⟩
    · rintro ⟨l, hsource, hl, hf⟩
      rw [← hsource]
      exact (Layout.gives_iff hl).mpr hf
  · intro l l' hsource hsource' hl hl'
    exact hl.unique hl' (hsource.trans hsource'.symm)
  · intro l hl body tail hgroup hmem
    exact absurd (hl.tail body tail hgroup ')' hmem) (by decide)
  · intro e h
    rw [parse] at h
    split at h
    · cases h
    · exact (Except.error.inj h).symm

/-- The body goes to the last closing parenthesis, and a value can hold parentheses and more `=`. -/
theorem parse_eq_ok_iff_parentheses :
    let source := " a.B$ (x = (1=2),, y=f(z) ) "
    let l : Layout :=
      ⟨[' '], "a.B$".toList, [' '], some ("x = (1=2),, y=f(z) ".toList, [' '])⟩
    let f : Filter := ⟨"a.B$", [⟨"x", "(1=2)"⟩, ⟨"y", "f(z)"⟩]⟩
    l.source = source.toList ∧ l.Valid ∧ l.Gives f ∧ parse source = .ok f := by
  intro source l f
  have hsource : l.source = source.toList := by decide +kernel
  have hblank : IsRun isBlank [' '] := by
    rintro c hc
    obtain rfl := List.mem_singleton.mp hc
    decide
  have hname : IsName "a.B$".toList :=
    isName_of_continues (by decide) (.dot (by decide) (.word (by decide +kernel) .nil))
  have hvalid : l.Valid := by
    refine ⟨hblank, hname, hblank, ?_, ?_⟩
    · rintro _ _ ⟨⟩
      decide +kernel
    · rintro _ _ ⟨⟩
      exact hblank
  have hparse : parse source = .ok f := by decide +kernel
  obtain ⟨hread, hunique, _⟩ := parse_eq_ok_iff source
  obtain ⟨l', hsource', hvalid', hgives⟩ := (hread f).mp hparse
  rw [hunique l' l hsource' hsource hvalid' hvalid] at hgives
  exact ⟨hsource, hvalid, hgives, hparse⟩

end ApiSurface.Filter
