import CrossShader.Proofs.Reader.Border

/-!
# Pieces of texts with tokens

If a text has tokens, so have the pieces that it was put together from.  A piece could only fail to have
tokens by ending in the beginning of a number, and nothing that is put behind pieces completes one.

* `isNumber_of_point` — what stands before a point in a number is a number.
* `Neutral` — characters that complete no number; `neutral_separator`, `neutral_point`, `neutral_operator` —
  separators, points and operators behind operands.
* `Scans` — texts with tokens; `Scans.left` — what stands before neutral characters.
* `Scans.cut`, `Scans.spaced`, `Scans.enclosed`, `Scans.arguments` — operands, groups and arguments.
-/

set_option autoImplicit false

namespace CrossShader.Reader

/-! ## Points in numbers -/

theorem point_notMem_of_dropWhile {cs : List Char} (h : '.' ∉ cs.dropWhile Char.isDigit) :
    '.' ∉ cs := by
  induction cs with
  | nil => exact nofun
  | cons c cs ih =>
    by_cases hc : c.isDigit = true
    · rw [List.dropWhile_cons_of_pos hc] at h
      refine List.not_mem_cons_of_ne_of_not_mem ?_ (ih h)
      rintro rfl
      cases hc
    · rwa [List.dropWhile_cons_of_neg hc] at h

theorem point_notMem_of_isFloatSuffix {cs : List Char} (h : isFloatSuffix cs = true) : '.' ∉ cs := by
  unfold isFloatSuffix at h
  split at h
  · exact nofun
  · decide
  · decide
  · cases h

theorem point_notMem_of_isExponentDigits {cs : List Char} (h : isExponentDigits cs = true) :
    '.' ∉ cs := by
  rw [isExponentDigits, Bool.and_eq_true] at h
  exact point_notMem_of_dropWhile (point_notMem_of_isFloatSuffix h.2)

theorem point_notMem_of_isExponent {cs : List Char} (h : isExponent cs = true) : '.' ∉ cs := by
  unfold isExponent at h
  split at h
  case h_7 => cases h
  all_goals
    have hdigits := point_notMem_of_isExponentDigits h
    simpa using hdigits

/-- **What stands before a point in a number is a number** if it is anything. -/
theorem isNumber_of_point {w v : List Char} (hne : w ≠ []) (h : isNumber (w ++ '.' :: v) = true) :
    isNumber w = true := by
  unfold isNumber at h ⊢
  cases hrest : w.dropWhile Char.isDigit with
  | nil =>
    have hdigits : w.takeWhile Char.isDigit = w := by
      have hsplit := List.takeWhile_append_dropWhile (p := Char.isDigit) (l := w)
      rwa [hrest, List.append_nil] at hsplit
    obtain ⟨c, cs, rfl⟩ := List.exists_cons_of_ne_nil hne
    rw [hdigits]
    rfl
  | cons c cs =>
    -- behind the leading digits, a number has one point at most
    have htail : (w ++ '.' :: v).dropWhile Char.isDigit = c :: (cs ++ '.' :: v) := by
      rw [List.dropWhile_append, hrest]
      rfl
    have hpoint : '.' ∈ cs ++ '.' :: v := by simp
    rw [htail] at h
    unfold isNumberTail at h
    split at h
    case h_1 heq => cases heq
    case h_2 heq | h_3 heq =>
      have hnil : cs ++ '.' :: v = [] := (List.cons.inj heq).2
      rw [hnil] at hpoint
      cases hpoint
    case h_4 tail heq =>
      have hcs : cs ++ '.' :: v = tail := (List.cons.inj heq).2
      rw [hcs] at hpoint
      simp only [Bool.and_eq_true, Bool.or_eq_true] at h
      refine absurd hpoint (point_notMem_of_dropWhile ?_)
      rcases h.2 with h | h
      · exact point_notMem_of_isFloatSuffix h
      · exact point_notMem_of_isExponent h
    case h_5 =>
      rw [Bool.and_eq_true] at h
      exact absurd (List.mem_cons_of_mem c hpoint) (point_notMem_of_isExponent h.2)

/-! ## Neutral characters -/

/-- Characters that complete no number: behind one that is not finished, there are no tokens. -/
def Neutral (rest : List Char) : Prop :=
  ∀ w ts, w ≠ [] → scan (some (.number w)) rest = some ts → isNumber w = true

theorem isNumber_of_finished {w : List Char} {done : List Token}
    (h : finished (some (.number w)) = some done) : isNumber w = true :=
  (finished_some h).1

theorem neutral_of_not_extends {c : Char} (hc : ∀ w, extendsNumber w c = false) (cs : List Char) :
    Neutral (c :: cs) := by
  intro w ts _ h
  simp only [scan, Option.bind_some, Token.extend?, hc, Bool.false_eq_true, if_false] at h
  split at h
  · rename_i hdone _
    exact isNumber_of_finished hdone
  · cases h

theorem neutral_point (cs : List Char) : Neutral ('.' :: cs) := by
  intro w ts hne h
  have hgo : extendsNumber w '.' = true := by simp [extendsNumber]
  simp only [scan, Option.bind_some, Token.extend?, hgo, if_true] at h
  have hextend : ∀ t c longer, (∃ v, t = Token.number (w ++ '.' :: v)) → t.extend? c = some longer →
      ∃ v, longer = Token.number (w ++ '.' :: v) := by
    rintro _ c longer ⟨v, rfl⟩ hlonger
    simp only [Token.extend?] at hlonger
    split at hlonger
    · cases hlonger
      exact ⟨v ++ [c], by simp⟩
    · cases hlonger
  obtain ⟨first, hfirst, v, rfl⟩ := scan_head hextend h ⟨[], rfl⟩
  have hcomplete := (scan_forall (Q := fun _ => True) (fun _ _ _ => trivial)
    (fun _ _ _ _ _ => trivial) h (fun _ _ => trivial) _ (List.mem_of_head? hfirst)).1
  exact isNumber_of_point hne hcomplete

theorem neutral_member (name : String) : Neutral ("." ++ name).toList := by
  rw [String.toList_append]
  exact neutral_point _

/-- Operators behind their operands. -/
theorem neutral_operator {op : UnaryOp} (hop : op.followsOperand = true) :
    Neutral op.token.toList := by
  have hsign : ∀ x : Char, x = '+' ∨ x = '-' → Neutral [x, x] := by
    intro x hx w ts hne h
    have hdigit : x.isDigit = false := by rcases hx with rfl | rfl <;> rfl
    have hother : x ∉ ['u', 'U', 'f', 'F', '.'] := by rcases hx with rfl | rfl <;> decide
    cases hgo : extendsNumber w x with
    | false =>
      simp only [scan, Option.bind_some, Token.extend?, hgo, Bool.false_eq_true, if_false] at h
      split at h
      · rename_i hdone _
        exact isNumber_of_finished hdone
      · cases h
    | true =>
      -- the sign would belong to an exponent that has no digits
      have hstop : extendsNumber (w ++ [x]) x = false := by
        rcases hx with rfl | rfl <;> simp [extendsNumber, isWordChar]
      simp only [scan, Option.bind_some, Token.extend?, hgo, hstop, Bool.false_eq_true, if_false,
        if_true] at h
      split at h
      · rename_i hdone _
        have hlast : NotLast x (w ++ [x]) :=
          notLast_of_isNumber hdigit hother (isNumber_of_finished hdone)
        exact absurd List.getLast?_concat hlast
      · cases h
  cases op with
  | postIncrement => exact hsign '+' (.inl rfl)
  | postDecrement => exact hsign '-' (.inr rfl)
  | _ => cases hop

/-! ## Pieces -/

/-- A text that has tokens. -/
def Scans (text : String) : Prop := ∃ ts, tokens text = some ts

/-- A number has characters. -/
def Token.Sized : Token → Prop
  | .number w => w ≠ []
  | .word _ | .mark _ => True

theorem Token.Sized.extend? {t longer : Token} {c : Char} (h : t.extend? c = some longer) :
    longer.Sized := by
  cases t with
  | word w =>
    simp only [Token.extend?] at h
    split at h <;> cases h
    trivial
  | number w =>
    simp only [Token.extend?] at h
    split at h <;> cases h
    exact List.append_ne_nil_of_right_ne_nil w (List.cons_ne_nil c [])
  | mark m =>
    simp only [Token.extend?] at h
    split at h
    · cases h
      exact List.cons_ne_nil '.' [c]
    · obtain ⟨m', -, rfl⟩ := Option.map_eq_some_iff.1 h
      trivial

theorem sized_of_started {c : Char} {t : Token} (h : started c = some (some t)) : t.Sized := by
  unfold started at h
  split at h
  · cases h
  · obtain ⟨t', ht, heq⟩ := Option.map_eq_some_iff.1 h
    cases heq
    unfold Token.ofChar? at ht
    split at ht
    · cases ht
      trivial
    · split at ht
      · cases ht
        exact List.cons_ne_nil c []
      · obtain ⟨m, -, rfl⟩ := Option.map_eq_some_iff.1 ht
        trivial

theorem scan_left {rest : List Char} (hrest : Neutral rest) {cs : List Char} {current : Option Token}
    (hcurrent : ∀ t, current = some t → t.Sized) {ts : List Token}
    (h : scan current (cs ++ rest) = some ts) : ∃ us, scan current cs = some us := by
  induction cs generalizing current ts with
  | nil =>
    cases current with
    | none => exact ⟨[], rfl⟩
    | some t =>
      cases t with
      | word w => exact ⟨[.word w], rfl⟩
      | mark m => exact ⟨[.mark m], rfl⟩
      | number w =>
        have hnumber := hrest w ts (hcurrent _ rfl) h
        exact ⟨[.number w], by simp [scan, finished, Token.isComplete, hnumber]⟩
  | cons c cs ih =>
    rw [List.cons_append] at h
    obtain ⟨longer, hlonger, h⟩ | ⟨hstop, done, next, later, hdone, hnext, hlater, -⟩ :=
      scan_cons_iff.1 h
    · obtain ⟨t, -, hext⟩ := Option.bind_eq_some_iff.1 hlonger
      have hsized : ∀ t', some longer = some t' → t'.Sized := by
        rintro t' ⟨⟩
        exact Token.Sized.extend? hext
      obtain ⟨us, hus⟩ := ih hsized h
      exact ⟨us, scan_cons_iff.2 (.inl ⟨longer, hlonger, hus⟩)⟩
    · obtain ⟨us, hus⟩ := ih (fun t ht => sized_of_started (ht ▸ hnext)) hlater
      exact ⟨done ++ us, scan_cons_iff.2 (.inr ⟨hstop, done, next, us, hdone, hnext, hus, rfl⟩)⟩

namespace Scans

variable {a b : String}

/-- **What stands before neutral characters has tokens.** -/
theorem left (hb : Neutral b.toList) (h : Scans (a ++ b)) : Scans a := by
  obtain ⟨ts, hts⟩ := h
  rw [tokens, String.toList_append] at hts
  exact scan_left hb (fun t ht => absurd ht.symm (Option.some_ne_none t)) hts

/-- What stands behind tokens that do not go on has tokens. -/
theorem right {us : List Token} (ha : tokens a = some us) (hapart : Apart us b.toList)
    (h : Scans (a ++ b)) : Scans b := by
  obtain ⟨ts, hts⟩ := h
  rw [tokens, String.toList_append, scan_append ha hapart] at hts
  obtain ⟨vs, hvs, -⟩ := Option.map_eq_some_iff.1 hts
  exact ⟨vs, hvs⟩

end Scans

/-- Characters that no token goes on with. -/
def separates (c : Char) : Bool := c == ' ' || c == '(' || c == ')' || c == '[' || c == ']' || c == ','

theorem extend?_of_separates {c : Char} (hc : separates c = true) (t : Token) : t.extend? c = none := by
  simp only [separates, Bool.or_eq_true, beq_iff_eq] at hc
  rcases hc with ((((rfl | rfl) | rfl) | rfl) | rfl) | rfl <;>
    cases t with
    | word w => rfl
    | number w => rfl
    | mark m =>
      cases m with
      | assign op => cases op <;> rfl
      | _ => rfl

theorem neutral_separator {b : String} (hb : b.toList.head?.any separates = true) :
    Neutral b.toList := by
  cases hcs : b.toList with
  | nil =>
    rw [hcs] at hb
    cases hb
  | cons c cs =>
    rw [hcs] at hb
    refine neutral_of_not_extends (fun w => ?_) cs
    have hstop := extend?_of_separates hb (.number w)
    simpa [Token.extend?] using hstop

namespace Scans

variable {a b : String}

/-- **A text is cut before a separator.** -/
theorem cut (hb : b.toList.head?.any separates = true) (h : Scans (a ++ b)) : Scans a ∧ Scans b := by
  obtain ⟨us, hus⟩ := h.left (neutral_separator hb)
  refine ⟨⟨us, hus⟩, h.right hus fun t _ c hc => ?_⟩
  rw [Option.mem_def.1 hc] at hb
  exact extend?_of_separates hb t

theorem blank (h : Scans (" " ++ a)) : Scans a := by
  obtain ⟨ts, hts⟩ := h
  rw [tokens, String.toList_append] at hts
  change ((scan none a.toList).map ([] ++ ·)) = some ts at hts
  exact ⟨ts, by simpa [tokens] using hts⟩

/-- **Two texts around a word or a mark with blanks.** -/
theorem spaced {sep : String} (h : Scans (a ++ " " ++ sep ++ " " ++ b)) : Scans a ∧ Scans b := by
  have hshape : a ++ " " ++ sep ++ " " ++ b = a ++ (" " ++ sep ++ (" " ++ b)) := by
    simp only [String.append_assoc]
  rw [hshape] at h
  obtain ⟨ha, hrest⟩ := h.cut (by simp [String.toList_append, separates])
  exact ⟨ha, (hrest.cut (by simp [String.toList_append, separates])).2.blank⟩

/-- The operands of the conditional operator. -/
theorem conditional {c : String} (h : Scans (Text.conditionalText c a b)) :
    Scans c ∧ Scans a ∧ Scans b := by
  have hshape : Text.conditionalText c a b = c ++ " " ++ "?" ++ " " ++ (a ++ " " ++ ":" ++ " " ++ b) := by
    have hquestion : " ? " = " " ++ "?" ++ " " := rfl
    have hcolon : " : " = " " ++ ":" ++ " " := rfl
    change c ++ " ? " ++ a ++ " : " ++ b = _
    rw [hquestion, hcolon]
    simp only [String.append_assoc]
  rw [hshape] at h
  obtain ⟨hc, hrest⟩ := h.spaced
  exact ⟨hc, hrest.spaced⟩

/-- What stands behind an opening bracket. -/
theorem behind {m : Mark} (hm : m = .openParen ∨ m = .openBracket) (ha : tokens a = some [.mark m])
    (h : Scans (a ++ b)) : Scans b := by
  refine h.right ha fun t ht c _ => ?_
  obtain rfl := Option.some.inj ht
  rcases hm with rfl | rfl <;> rfl

/-- **A text in parentheses.** -/
theorem enclosed (h : Scans ("(" ++ a ++ ")")) : Scans a :=
  ((h.cut rfl).1).behind (.inl rfl) rfl

/-- The text of an operand without its parentheses. -/
theorem of_parenthesize {compound : Bool} (h : Scans (Text.parenthesize compound a)) : Scans a := by
  cases compound with
  | false => exact h
  | true => exact h.enclosed

theorem joined {texts : List String} (h : Scans (String.intercalate ", " texts ++ ")")) :
    ∀ text ∈ texts, Scans text := by
  induction texts with
  | nil => exact nofun
  | cons first texts ih =>
    cases texts with
    | nil =>
      rw [String.intercalate_singleton] at h
      exact List.forall_mem_singleton.2 (h.cut rfl).1
    | cons second texts =>
      have hshape : String.intercalate ", " (first :: second :: texts) ++ ")" =
          first ++ ("," ++ (" " ++ (String.intercalate ", " (second :: texts) ++ ")"))) := by
        have hcomma : ", " = "," ++ " " := rfl
        rw [String.intercalate_cons_cons, hcomma]
        simp only [String.append_assoc]
      rw [hshape] at h
      obtain ⟨hfirst, hrest⟩ := h.cut (by simp [String.toList_append, separates])
      have hlater := (hrest.cut (by simp [String.toList_append, separates])).2.blank
      exact List.forall_mem_cons.2 ⟨hfirst, ih hlater⟩

/-- **The arguments of a call.** -/
theorem arguments {name : String} {texts : List String} (h : Scans (Text.callText name texts)) :
    ∀ text ∈ texts, Scans text := by
  have hshape : Text.callText name texts =
      name ++ ("(" ++ (String.intercalate ", " texts ++ ")")) := by
    simp only [Text.callText, String.append_assoc]
  rw [hshape] at h
  exact ((h.cut (by simp [String.toList_append, separates])).2.behind (.inl rfl) rfl).joined

/-- The operand of an operator before it. -/
theorem signed {op : UnaryOp} (hstart : a.toList.head?.any startsOperand = true)
    (h : Scans (op.token ++ a)) : Scans a := by
  obtain ⟨m, hm, hmark⟩ : ∃ m : Mark, tokens op.token = some [.mark m] ∧ m ≠ .dot := by
    cases op <;> exact ⟨_, rfl, by decide⟩
  refine h.right hm fun t ht c hc => ?_
  have hlast : t = .mark m := (Option.some.inj ht).symm
  rw [Option.mem_def.1 hc] at hstart
  rw [hlast, Token.extend?, if_neg (fun hdot => hmark hdot.1), Mark.extend?_eq_none hstart,
    Option.map_none]

end Scans

end CrossShader.Reader
