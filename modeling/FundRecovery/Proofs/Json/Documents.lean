import FundRecovery.Proofs.Json.Tokens

/-!
# Written documents read back

* `Writable`: the values that records are written as.
* `ReadsBack`: a value at the front of a text reads back, where what follows does not continue it.
* `Writable.readsBack`: writable values do; `parse?_render`: so their texts read as them.
-/

namespace FundRecovery.Json

/-! ## Values -/

/-- A value without broken texts and without numbers other than natural ones, whose keys are all
texts. -/
inductive Writable : Json → Prop where
  | null : Writable null
  | bool (b : Bool) : Writable (bool b)
  | natural (n : Nat) : Writable (natural n)
  | text (s : String) : Writable (text s)
  | list {items : List Json} (h : ∀ v ∈ items, Writable v) : Writable (list items)
  | object {members : List (String × Json)} (h : ∀ m ∈ members, Writable m.2) :
    Writable (ofMembers members)

/-- With as much fuel as it has characters, the value reads back at the front of a text. -/
def ReadsBack (v : Json) : Prop :=
  ∀ fuel rest, v.render.toList.length ≤ fuel → Ends rest →
    value? fuel (v.render.toList ++ rest) = some (v, rest)

/-- The text is not that of a closing bracket or brace, and there are no blanks before it. -/
def Opens (cs : List Char) : Prop :=
  ∀ rest, ∃ c cs', cs ++ rest = c :: cs' ∧ isBlank c = false ∧ c ≠ ']' ∧ c ≠ '\x7d'

theorem opens_cons {c : Char} (h : isBlank c = false ∧ c ≠ ']' ∧ c ≠ '\x7d') (cs : List Char) :
    Opens (c :: cs) := fun rest => ⟨c, cs ++ rest, rfl, h⟩

theorem skipBlanks_cons {c : Char} (h : isBlank c = false) (cs : List Char) :
    skipBlanks (c :: cs) = c :: cs := by
  rw [skipBlanks, List.dropWhile_cons, h]
  rfl

/-! ## Characters of a text -/

theorem toList_renderText (s : String) :
    (renderText s).toList = '"' :: (s.toList.flatMap escapedChar ++ ['"']) :=
  String.toList_ofList

theorem toList_render_natural (n : Nat) : (natural n).render.toList = Nat.toDigits 10 n := by
  rw [render]
  exact Nat.toList_repr

theorem toList_render_list (items : List Json) :
    (list items).render.toList = '[' :: ((renderItems items).toList ++ [']']) := by
  rw [render, String.toList_append, String.toList_append]
  rfl

theorem toList_renderItems_cons (v w : Json) (rest : List Json) :
    (renderItems (v :: w :: rest)).toList =
      v.render.toList ++ ',' :: (renderItems (w :: rest)).toList := by
  rw [renderItems, String.toList_append, String.toList_append, List.append_assoc]
  · rfl
  · rintro ⟨⟩

/-- The members of an object as they are written. -/
def memberChars (members : List (String × Json)) : List Char :=
  (renderMembers (members.map fun m => (some m.1, m.2))).toList

theorem toList_render_object (members : List (String × Json)) :
    (ofMembers members).render.toList = '\x7b' :: (memberChars members ++ ['\x7d']) := by
  rw [ofMembers, render, String.toList_append, String.toList_append]
  rfl

theorem toList_renderMember (m : String × Json) :
    (renderMember (some m.1, m.2)).toList =
      '"' :: (m.1.toList.flatMap escapedChar ++ '"' :: ':' :: m.2.render.toList) := by
  rw [renderMember, Option.elim_some, String.toList_append, String.toList_append, toList_renderText]
  simp

theorem memberChars_singleton (m : String × Json) :
    memberChars [m] = (renderMember (some m.1, m.2)).toList := by
  rw [memberChars, List.map_singleton, renderMembers]

theorem memberChars_cons (m n : String × Json) (rest : List (String × Json)) :
    memberChars (m :: n :: rest) =
      (renderMember (some m.1, m.2)).toList ++ ',' :: memberChars (n :: rest) := by
  rw [memberChars, List.map_cons, List.map_cons, renderMembers, String.toList_append,
    String.toList_append, List.append_assoc]
  · rfl
  · rintro ⟨⟩

/-! ## Single values -/

theorem isDigit_ne {c d : Char} (hc : c.isDigit = true) (hd : d.isDigit = false) : c ≠ d := by
  rintro rfl
  rw [hc] at hd
  cases hd

theorem isBlank_of_isDigit {c : Char} (hc : c.isDigit = true) : isBlank c = false := by
  simp only [isBlank, Bool.or_eq_false_iff, decide_eq_false_iff_not]
  exact ⟨⟨⟨isDigit_ne hc (by decide), isDigit_ne hc (by decide)⟩, isDigit_ne hc (by decide)⟩,
    isDigit_ne hc (by decide)⟩

theorem opens_toDigits (n : Nat) : Opens (Nat.toDigits 10 n) := by
  obtain ⟨c, cs, he⟩ := List.exists_cons_of_ne_nil (Nat.toDigits_ne_nil : Nat.toDigits 10 n ≠ [])
  have hc : c.isDigit = true :=
    Nat.isDigit_of_mem_toDigits (by decide) (by decide) (he ▸ List.mem_cons_self)
  rw [he]
  exact opens_cons ⟨isBlank_of_isDigit hc, isDigit_ne hc (by decide), isDigit_ne hc (by decide)⟩ cs

/-- What starts with a digit reads as a number. -/
theorem value?_digit {c : Char} (hc : c.isDigit = true) (fuel : Nat) (cs : List Char) :
    value? (fuel + 1) (c :: cs) = number? [] (c :: cs) := by
  rw [value?, skipBlanks_cons (isBlank_of_isDigit hc)]
  split
  all_goals first
    | rfl
    | (rename_i he; cases he; exact absurd hc (by decide))

theorem readsBack_natural (n : Nat) : ReadsBack (natural n) := by
  intro fuel rest hfuel hrest
  rw [toList_render_natural] at hfuel ⊢
  obtain ⟨c, cs, he⟩ := List.exists_cons_of_ne_nil (Nat.toDigits_ne_nil : Nat.toDigits 10 n ≠ [])
  have hc : c.isDigit = true :=
    Nat.isDigit_of_mem_toDigits (by decide) (by decide) (he ▸ List.mem_cons_self)
  have hread := number?_numeral n hrest
  rw [he] at hfuel hread ⊢
  obtain ⟨fuel, rfl⟩ := Nat.exists_eq_add_of_le' (Nat.le_trans (Nat.le_add_left 1 _) hfuel)
  exact (value?_digit hc fuel _).trans hread

theorem readsBack_null : ReadsBack null := by
  rintro (_ | fuel) rest hfuel -
  · exact absurd hfuel (by decide)
  · rfl

theorem readsBack_bool (b : Bool) : ReadsBack (bool b) := by
  cases b with
  | true =>
    rintro (_ | fuel) rest hfuel -
    · exact absurd hfuel (by decide)
    · rfl
  | false =>
    rintro (_ | fuel) rest hfuel -
    · exact absurd hfuel (by decide)
    · rfl

theorem value?_quote (fuel : Nat) (cs : List Char) :
    value? (fuel + 1) ('"' :: cs) =
      (stringBody cs).map fun r => ((bodyText? r.1).elim brokenText text, r.2) := by
  cases h : stringBody cs <;> simp [value?, skipBlanks, isBlank, h]

theorem readsBack_text (s : String) : ReadsBack (text s) := by
  rintro (_ | fuel) rest hfuel -
  · rw [render, toList_renderText] at hfuel
    cases hfuel
  · rw [render, toList_renderText, List.cons_append, List.append_assoc, value?_quote,
      List.singleton_append, stringBody_escaped, Option.map_some, bodyText?_codes, Option.elim_some]

/-! ## Lists and objects -/

theorem value?_bracket {cs : List Char} (h : Opens cs) (fuel : Nat) (rest : List Char) :
    value? (fuel + 1) ('[' :: (cs ++ rest)) =
      (items? fuel (cs ++ rest)).map fun r => (list r.1, r.2) := by
  obtain ⟨c, cs', he, hc, hbracket, -⟩ := h rest
  have hopen : skipBlanks ('[' :: c :: cs') = '[' :: c :: cs' := rfl
  rw [he, value?, hopen]
  simp only [skipBlanks_cons hc]
  cases hr : items? fuel (c :: cs') <;> simp [hr, hbracket]

theorem value?_brace {cs : List Char} (h : Opens cs) (fuel : Nat) (rest : List Char) :
    value? (fuel + 1) ('\x7b' :: (cs ++ rest)) =
      (members? fuel (cs ++ rest)).map fun r => (object r.1, r.2) := by
  obtain ⟨c, cs', he, hc, -, hbrace⟩ := h rest
  have hopen : skipBlanks ('\x7b' :: c :: cs') = '\x7b' :: c :: cs' := rfl
  rw [he, value?, hopen]
  simp only [skipBlanks_cons hc]
  cases hr : members? fuel (c :: cs') <;> simp [hr, hbrace]

theorem items?_last {fuel : Nat} {cs rest : List Char} {v : Json}
    (h : value? fuel cs = some (v, ']' :: rest)) : items? (fuel + 1) cs = some ([v], rest) := by
  have hclose : skipBlanks (']' :: rest) = ']' :: rest := rfl
  simp [items?, h, hclose]

theorem items?_next {fuel : Nat} {cs rest rest' : List Char} {v : Json} {vs : List Json}
    (h : value? fuel cs = some (v, ',' :: rest)) (hrest : items? fuel rest = some (vs, rest')) :
    items? (fuel + 1) cs = some (v :: vs, rest') := by
  have hcomma : skipBlanks (',' :: rest) = ',' :: rest := rfl
  simp [items?, h, hcomma, hrest]

/-- One step of fuel per item, and what the item itself takes. -/
theorem items?_render {items : List Json} (hne : items ≠ []) (hread : ∀ v ∈ items, ReadsBack v)
    {fuel : Nat} (hfuel : (renderItems items).toList.length + 1 ≤ fuel) (rest : List Char) :
    items? fuel ((renderItems items).toList ++ ']' :: rest) = some (items, rest) := by
  induction items generalizing fuel with
  | nil => exact absurd rfl hne
  | cons v more ih =>
    obtain ⟨hv, hmore⟩ := List.forall_mem_cons.mp hread
    obtain ⟨fuel, rfl⟩ := Nat.exists_eq_add_of_le' (Nat.le_trans (Nat.le_add_left 1 _) hfuel)
    have hfuel := Nat.le_of_succ_le_succ hfuel
    cases more with
    | nil =>
      rw [renderItems] at hfuel ⊢
      exact items?_last (hv fuel _ hfuel (ends_cons (by decide) rest))
    | cons w more =>
      rw [toList_renderItems_cons, List.length_append, List.length_cons] at hfuel
      rw [toList_renderItems_cons, List.append_assoc, List.cons_append]
      refine items?_next (hv fuel _ (by omega) (ends_cons (by decide) _)) ?_
      exact ih (List.cons_ne_nil w more) hmore (by omega)

theorem members?_last {fuel : Nat} {m : String × Json} {cs rest : List Char}
    (h : value? fuel cs = some (m.2, '\x7d' :: rest)) :
    members? (fuel + 1) ('"' :: (m.1.toList.flatMap escapedChar ++ '"' :: ':' :: cs)) =
      some ([(some m.1, m.2)], rest) := by
  have hquote (cs : List Char) : skipBlanks ('"' :: cs) = '"' :: cs := rfl
  have hcolon : skipBlanks (':' :: cs) = ':' :: cs := rfl
  have hclose : skipBlanks ('\x7d' :: rest) = '\x7d' :: rest := rfl
  simp [members?, hquote, stringBody_escaped, hcolon, h, hclose, bodyText?_codes]

theorem members?_next {fuel : Nat} {m : String × Json} {cs rest rest' : List Char}
    {ms : List (Option String × Json)} (h : value? fuel cs = some (m.2, ',' :: rest))
    (hrest : members? fuel rest = some (ms, rest')) :
    members? (fuel + 1) ('"' :: (m.1.toList.flatMap escapedChar ++ '"' :: ':' :: cs)) =
      some ((some m.1, m.2) :: ms, rest') := by
  have hquote (cs : List Char) : skipBlanks ('"' :: cs) = '"' :: cs := rfl
  have hcolon : skipBlanks (':' :: cs) = ':' :: cs := rfl
  have hcomma : skipBlanks (',' :: rest) = ',' :: rest := rfl
  simp [members?, hquote, stringBody_escaped, hcolon, h, hcomma, hrest, bodyText?_codes]

theorem members?_render {members : List (String × Json)} (hne : members ≠ [])
    (hread : ∀ m ∈ members, ReadsBack m.2) {fuel : Nat}
    (hfuel : (memberChars members).length + 1 ≤ fuel) (rest : List Char) :
    members? fuel (memberChars members ++ '\x7d' :: rest) =
      some (members.map fun m => (some m.1, m.2), rest) := by
  induction members generalizing fuel with
  | nil => exact absurd rfl hne
  | cons m more ih =>
    obtain ⟨hm, hmore⟩ := List.forall_mem_cons.mp hread
    obtain ⟨fuel, rfl⟩ := Nat.exists_eq_add_of_le' (Nat.le_trans (Nat.le_add_left 1 _) hfuel)
    have hfuel := Nat.le_of_succ_le_succ hfuel
    cases more with
    | nil =>
      rw [memberChars_singleton, toList_renderMember] at hfuel ⊢
      simp only [List.length_cons, List.length_append] at hfuel
      simp only [List.cons_append, List.append_assoc]
      exact members?_last (hm fuel _ (by omega) (ends_cons (by decide) rest))
    | cons n more =>
      rw [memberChars_cons, toList_renderMember] at hfuel ⊢
      simp only [List.length_cons, List.length_append] at hfuel
      simp only [List.cons_append, List.append_assoc]
      refine members?_next (hm fuel _ (by omega) (ends_cons (by decide) _)) ?_
      exact ih (List.cons_ne_nil n more) hmore (by omega)

/-! ## Documents -/

theorem Opens.append {cs : List Char} (h : Opens cs) (ds : List Char) : Opens (cs ++ ds) := by
  intro rest
  rw [List.append_assoc]
  exact h (ds ++ rest)

theorem Writable.opens {v : Json} (h : Writable v) : Opens v.render.toList := by
  cases h with
  | null => exact opens_cons (by decide) _
  | bool b => cases b <;> exact opens_cons (by decide) _
  | natural n =>
    rw [toList_render_natural]
    exact opens_toDigits n
  | text s =>
    rw [render, toList_renderText]
    exact opens_cons (by decide) _
  | list _ =>
    rw [toList_render_list]
    exact opens_cons (by decide) _
  | object _ =>
    rw [toList_render_object]
    exact opens_cons (by decide) _

theorem opens_renderItems {v : Json} (h : Opens v.render.toList) (rest : List Json) :
    Opens (renderItems (v :: rest)).toList := by
  cases rest with
  | nil => rwa [renderItems]
  | cons w rest =>
    rw [toList_renderItems_cons]
    exact h.append _

theorem opens_memberChars (m : String × Json) (rest : List (String × Json)) :
    Opens (memberChars (m :: rest)) := by
  have hmember : Opens (renderMember (some m.1, m.2)).toList := by
    rw [toList_renderMember]
    exact opens_cons (by decide) _
  cases rest with
  | nil => rwa [memberChars_singleton]
  | cons n rest =>
    rw [memberChars_cons]
    exact hmember.append _

/-- **Writable values read back.** -/
theorem Writable.readsBack {v : Json} (h : Writable v) : ReadsBack v := by
  induction h with
  | null => exact readsBack_null
  | bool b => exact readsBack_bool b
  | natural n => exact readsBack_natural n
  | text s => exact readsBack_text s
  | @list items hitems ih =>
    intro fuel rest hfuel _
    rw [toList_render_list] at hfuel ⊢
    simp only [List.length_cons, List.length_append] at hfuel
    obtain ⟨fuel, rfl⟩ := Nat.exists_eq_add_of_le' (Nat.le_trans (Nat.le_add_left 1 _) hfuel)
    rw [List.cons_append, List.append_assoc]
    cases items with
    | nil => rfl
    | cons w more =>
      have hopens := opens_renderItems (hitems w List.mem_cons_self).opens more
      rw [value?_bracket hopens, List.singleton_append,
        items?_render (List.cons_ne_nil w more) ih (by omega)]
      rfl
  | @object members hmembers ih =>
    intro fuel rest hfuel _
    rw [toList_render_object] at hfuel ⊢
    simp only [List.length_cons, List.length_append] at hfuel
    obtain ⟨fuel, rfl⟩ := Nat.exists_eq_add_of_le' (Nat.le_trans (Nat.le_add_left 1 _) hfuel)
    rw [List.cons_append, List.append_assoc]
    cases members with
    | nil => rfl
    | cons m more =>
      rw [value?_brace (opens_memberChars m more), List.singleton_append,
        members?_render (List.cons_ne_nil m more) ih (by omega)]
      rfl

/-- **The text of a writable value reads as the value.** -/
theorem parse?_render {v : Json} (h : Writable v) : parse? v.render = some v := by
  have hread := h.readsBack (2 * v.render.toList.length + 1) [] (by omega) ends_nil
  rw [List.append_nil] at hread
  rw [parse?]
  dsimp only
  rw [hread]
  rfl

end FundRecovery.Json
