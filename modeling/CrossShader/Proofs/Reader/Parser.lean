import CrossShader.Proofs.Reader.Grammar

/-!
# The expression parser

A recursive-descent parser for the expression grammar.  Each function returns a tree and the tokens
behind it, which are fewer than the tokens it was given.

* `expression`, `operand`, `suffixed`, `primary` — one function for each rank; `operators`, `suffixes`
  and `arguments` go on after a first part.
* `parse` — the tree of a list of tokens.
* `Derives.found` — whatever the grammar derives is found.
* `parse_eq_some_iff` — the parser decides the grammar, so the grammar is unambiguous.
-/

set_option autoImplicit false

namespace CrossShader.Reader

/-- A tree, and the tokens behind it. -/
abbrev Parsed := Option (Tree × List Token)

/-- A mark has to follow. -/
def Parsed.expect (m : Mark) : Parsed → Parsed
  | some (t, .mark m' :: rest) => if m' = m then some (t, rest) else none
  | _ => none

mutual
/-- An expression: an operand, and the two branches if it is a condition. -/
def expression (ts : List Token) : Parsed :=
  match operand 1 ts with
  | some (condition, .mark .question :: rest) =>
    if _h : rest.length < ts.length then
      match Parsed.expect .colon (expression rest) with
      | some (accept, rest') =>
        if _h : rest'.length < rest.length then
          match expression rest' with
          | some (reject, rest'') => some (.conditional condition accept reject, rest'')
          | none => none
        else none
      | none => none
    else none
  | result => result
termination_by (ts.length, unaryLevel + 4)

/-- An operand of a level: one of the next level, and the operators that follow. -/
def operand (n : Nat) (ts : List Token) : Parsed :=
  if n < unaryLevel then
    match operand (n + 1) ts with
    | some (left, rest) => if _h : rest.length < ts.length then operators n left rest else none
    | none => none
  else
    match ts with
    | .mark m :: rest =>
      match m.leading? with
      | some op =>
        match operand n rest with
        | some (t, rest') => some (op t, rest')
        | none => none
      | none => suffixed (.mark m :: rest)
    | ts => suffixed ts
termination_by (ts.length, unaryLevel - n + 3)

/-- The operators of a level that follow their left operand. -/
def operators (n : Nat) (left : Tree) (ts : List Token) : Parsed :=
  match ts with
  | .mark m :: rest =>
    match m.binary? with
    | some op =>
      if level op = n then
        match operand (n + 1) rest with
        | some (right, rest') =>
          if _h : rest'.length < rest.length then operators n (.binary op left right) rest' else none
        | none => none
      else some (left, ts)
    | none => some (left, ts)
  | _ => some (left, ts)
termination_by (ts.length, 0)

/-- A primary and its suffixes. -/
def suffixed (ts : List Token) : Parsed :=
  match primary ts with
  | some (t, rest) => if _h : rest.length < ts.length then suffixes t rest else none
  | none => none
termination_by (ts.length, 2)

/-- A word, a number, or an expression in parentheses. -/
def primary (ts : List Token) : Parsed :=
  match ts with
  | .word w :: rest => some (wordTree w, rest)
  | .number w :: rest => some (.number (String.ofList w), rest)
  | .mark .openParen :: rest => Parsed.expect .closeParen (expression rest)
  | _ => none
termination_by (ts.length, 1)

/-- The suffixes of a phrase. -/
def suffixes (t : Tree) (ts : List Token) : Parsed :=
  match ts with
  | .mark .dot :: .word w :: rest => suffixes (.member t (String.ofList w)) rest
  | .mark .openBracket :: rest =>
    match Parsed.expect .closeBracket (expression rest) with
    | some (i, rest') => if _h : rest'.length < rest.length then suffixes (.index t i) rest' else none
    | none => none
  | .mark .openParen :: .mark .closeParen :: rest => suffixes (.call t []) rest
  | .mark .openParen :: rest =>
    match expression rest with
    | some (a, rest') => if _h : rest'.length < rest.length then arguments t [a] rest' else none
    | none => none
  | .mark m :: rest =>
    match m.trailing? with
    | some op => suffixes (.unary op t) rest
    | none => some (t, ts)
  | _ => some (t, ts)
termination_by (ts.length, 0)

/-- The rest of an argument list, and the suffixes of the call. -/
def arguments (f : Tree) (done : List Tree) (ts : List Token) : Parsed :=
  match ts with
  | .mark .closeParen :: rest => suffixes (.call f done) rest
  | .mark .comma :: rest =>
    match expression rest with
    | some (a, rest') =>
      if _h : rest'.length < rest.length then arguments f (done ++ [a]) rest' else none
    | none => none
  | _ => none
termination_by (ts.length, 0)
end

/-- The tree of a list of tokens. -/
def parse (ts : List Token) : Option Tree :=
  match expression ts with
  | some (t, []) => some t
  | _ => none

/-! ## Completeness -/

/-- The token behind an operand of a level neither is a suffix nor binds as tightly. -/
def Ends (n : Nat) : List Token → Prop
  | .mark m :: _ => m.trailing? = none ∧ m ≠ .dot ∧ m ≠ .openBracket ∧ m ≠ .openParen ∧
      ∀ op, m.binary? = some op → level op < n
  | _ => True

/-- The token behind an expression cannot belong to it. -/
def EndsExpression (rest : List Token) : Prop :=
  Ends 1 rest ∧ ∀ rest', rest ≠ .mark .question :: rest'

theorem Ends.mono {n k : Nat} {rest : List Token} (h : Ends n rest) (hnk : n ≤ k) : Ends k rest := by
  unfold Ends at h ⊢
  split at h
  · exact ⟨h.1, h.2.1, h.2.2.1, h.2.2.2.1,
      fun op hop => Nat.lt_of_lt_of_le (h.2.2.2.2 op hop) hnk⟩
  · trivial

theorem suffixes_of_ends {n : Nat} {rest : List Token} (h : Ends n rest) (t : Tree) :
    suffixes t rest = some (t, rest) := by
  unfold suffixes
  split
  · exact absurd rfl h.2.1
  · exact absurd rfl h.2.2.1
  · exact absurd rfl h.2.2.2.1
  · exact absurd rfl h.2.2.2.1
  · rw [h.1]
  · rfl

theorem operators_of_ends {n k : Nat} {rest : List Token} (h : Ends k rest)
    (hk : ∀ op, level op < k → level op ≠ n) (t : Tree) : operators n t rest = some (t, rest) := by
  unfold operators
  split
  · rename_i m rest
    split
    · rename_i op hop
      rw [if_neg (hk op (h.2.2.2.2 op hop))]
    · rfl
  · rfl

theorem endsExpression_of_separator {m : Mark} (hm : m = .closeParen ∨ m = .closeBracket ∨
    m = .comma ∨ m = .colon) (rest : List Token) : EndsExpression (.mark m :: rest) := by
  rcases hm with rfl | rfl | rfl | rfl <;>
    exact ⟨⟨rfl, nofun, nofun, nofun, nofun⟩, nofun⟩

theorem ends_question (n : Nat) (rest : List Token) : Ends n (.mark .question :: rest) :=
  ⟨rfl, nofun, nofun, nofun, nofun⟩

theorem ends_of_binary? {m : Mark} {op : BinaryOp} (hop : m.binary? = some op)
    (rest : List Token) : Ends (level op + 1) (.mark m :: rest) := by
  refine ⟨?_, ?_, ?_, ?_, ?_⟩
  · cases m <;> first | rfl | cases hop
  · rintro rfl; cases hop
  · rintro rfl; cases hop
  · rintro rfl; cases hop
  · intro op' hop'
    cases hop.symm.trans hop'
    exact Nat.lt_succ_self _

theorem length_lt_append {ts : List Token} (h : ts ≠ []) (rest : List Token) :
    rest.length < (ts ++ rest).length := by
  rw [List.length_append]
  have := List.length_pos_iff.2 h
  omega

theorem length_lt_append_cons (ts : List Token) (t : Token) (rest : List Token) :
    rest.length < (ts ++ t :: rest).length := by
  rw [List.length_append, List.length_cons]
  omega

theorem expect_cons (m : Mark) (t : Tree) (rest : List Token) :
    Parsed.expect m (some (t, .mark m :: rest)) = some (t, rest) := by
  simp [Parsed.expect]

/-- What the parser does with a phrase and the tokens behind it. -/
def Found : Rank → List Token → Tree → Prop
  | .primary, ts, t => ∀ rest, primary (ts ++ rest) = some (t, rest)
  | .suffixed, ts, t => ∀ rest, suffixed (ts ++ rest) = suffixes t rest
  | .openCall, ts, t => ∀ f done rest, t = .call f done → EndsExpression rest →
      suffixed (ts ++ rest) = arguments f done rest
  | .operand n, ts, t => ∀ rest, Ends (n + 1) rest → operand n (ts ++ rest) = operators n t rest
  | .expression, ts, t => ∀ rest, EndsExpression rest → expression (ts ++ rest) = some (t, rest)

/-- An operand of a level, if no operator of the level follows. -/
theorem operand_eq_some {n : Nat} {ts rest : List Token} {t : Tree} (h : Found (.operand n) ts t)
    (hends : Ends n rest) : operand n (ts ++ rest) = some (t, rest) := by
  rw [h rest (hends.mono (Nat.le_succ n)), operators_of_ends hends fun op hop => Nat.ne_of_lt hop]

theorem suffixed_phrase {ts : List Token} {t : Tree} (h : Found .primary ts t) (hne : ts ≠ []) :
    Found .suffixed ts t := by
  intro rest
  rw [suffixed, h rest]
  exact dif_pos (length_lt_append hne rest)

theorem index_phrase {ts us : List Token} {t i : Tree} (ht : Found .suffixed ts t)
    (hi : Found .expression us i) :
    Found .suffixed (ts ++ .mark .openBracket :: us ++ [.mark .closeBracket]) (.index t i) := by
  intro rest
  have hsplit : ts ++ .mark .openBracket :: us ++ [.mark .closeBracket] ++ rest =
      ts ++ .mark .openBracket :: (us ++ .mark .closeBracket :: rest) := by simp
  rw [hsplit, ht, suffixes, hi _ (endsExpression_of_separator (by simp) rest), expect_cons]
  exact dif_pos (length_lt_append_cons us _ rest)

theorem firstArgument_phrase {ts us : List Token} {f a : Tree} (hf : Found .suffixed ts f)
    (ha : Found .expression us a) (hne : us ≠ []) (hclose : us.head? ≠ some (.mark .closeParen)) :
    Found .openCall (ts ++ .mark .openParen :: us) (.call f [a]) := by
  intro f' done rest heq hends
  cases heq
  have hfirst : ∀ rest', us ++ rest ≠ .mark .closeParen :: rest' := by
    intro rest' heq
    have hhead : (us ++ rest).head? = us.head? := Derives.head?_append hne
    rw [heq] at hhead
    exact hclose hhead.symm
  rw [List.append_assoc, List.cons_append, hf, suffixes.eq_4 _ _ hfirst, ha rest hends]
  exact dif_pos (length_lt_append hne rest)

theorem nextArgument_phrase {ts us : List Token} {f a : Tree} {arguments : List Tree}
    (hf : Found .openCall ts (.call f arguments)) (ha : Found .expression us a) (hne : us ≠ []) :
    Found .openCall (ts ++ .mark .comma :: us) (.call f (arguments ++ [a])) := by
  intro f' done rest heq hends
  cases heq
  rw [List.append_assoc, List.cons_append,
    hf f arguments _ rfl (endsExpression_of_separator (by simp) _), Reader.arguments, ha rest hends]
  exact dif_pos (length_lt_append hne rest)

theorem unary_phrase {ts : List Token} {t : Tree} (h : Found .suffixed ts t)
    (hhead : ts.head?.any Derives.startsPrimary = true) : Found (.operand unaryLevel) ts t := by
  intro rest hends
  rw [operators_of_ends hends fun op _ => Nat.ne_of_lt (level_lt_unaryLevel op), operand.eq_def,
    if_neg (Nat.lt_irrefl _)]
  have hsuffixed : suffixed (ts ++ rest) = some (t, rest) := by
    rw [h, suffixes_of_ends hends]
  split
  · rename_i m rest' heq
    -- the only mark that such a phrase starts with is a parenthesis
    have hm : m.leading? = none := by
      cases ts with
      | nil => cases hhead
      | cons first ts =>
        cases heq
        cases m <;> first | rfl | cases hhead
    rw [hm, ← heq]
    exact hsuffixed
  · exact hsuffixed

theorem leading_phrase {ts : List Token} {t : Tree} {m : Mark} {op : Tree → Tree}
    (hop : m.leading? = some op) (h : Found (.operand unaryLevel) ts t) :
    Found (.operand unaryLevel) (.mark m :: ts) (op t) := by
  intro rest hends
  have hlevel : ∀ op', level op' < unaryLevel + 1 → level op' ≠ unaryLevel :=
    fun op' _ => Nat.ne_of_lt (level_lt_unaryLevel op')
  rw [List.cons_append, operators_of_ends hends hlevel, operand.eq_def, if_neg (Nat.lt_irrefl _)]
  simp only [hop]
  rw [h rest hends, operators_of_ends hends hlevel]

theorem lift_phrase {n : Nat} {ts : List Token} {t : Tree} (hn : n < unaryLevel)
    (h : Found (.operand (n + 1)) ts t) (hne : ts ≠ []) : Found (.operand n) ts t := by
  intro rest hends
  rw [operand.eq_def, if_pos hn, operand_eq_some h hends]
  exact dif_pos (length_lt_append hne rest)

theorem binary_phrase {ts us : List Token} {left right : Tree} {m : Mark} {op : BinaryOp}
    (hop : m.binary? = some op) (hleft : Found (.operand (level op)) ts left)
    (hright : Found (.operand (level op + 1)) us right) (hne : us ≠ []) :
    Found (.operand (level op)) (ts ++ .mark m :: us) (.binary op left right) := by
  intro rest hends
  rw [List.append_assoc, List.cons_append, hleft _ (ends_of_binary? hop _), operators.eq_def]
  simp only [hop, if_true]
  rw [operand_eq_some hright hends]
  exact dif_pos (length_lt_append hne rest)

theorem conditional_phrase {ts us vs : List Token} {c a r : Tree} (hc : Found (.operand 1) ts c)
    (ha : Found .expression us a) (hr : Found .expression vs r) :
    Found .expression (ts ++ .mark .question :: us ++ .mark .colon :: vs) (.conditional c a r) := by
  intro rest hends
  have hsplit : ts ++ .mark .question :: us ++ .mark .colon :: vs ++ rest =
      ts ++ .mark .question :: (us ++ .mark .colon :: (vs ++ rest)) := by simp
  rw [hsplit, expression, operand_eq_some hc (ends_question 1 _)]
  simp only [length_lt_append_cons, dite_true]
  rw [ha _ (endsExpression_of_separator (by simp) _), expect_cons]
  simp only [length_lt_append_cons, dite_true]
  rw [hr rest hends]

/-- **Whatever the grammar derives is found.** -/
theorem Derives.found {r : Rank} {ts : List Token} {t : Tree} (h : Derives r ts t) :
    Found r ts t := by
  induction h with
  | word w => exact fun rest => by rw [List.singleton_append, primary]
  | number w => exact fun rest => by rw [List.singleton_append, primary]
  | @group ts t _ ih =>
    intro rest
    have hsplit : .mark .openParen :: ts ++ [.mark .closeParen] ++ rest =
        Token.mark .openParen :: (ts ++ .mark .closeParen :: rest) := by simp
    rw [hsplit, primary, ih _ (endsExpression_of_separator (by simp) rest), expect_cons]
  | ofPrimary h ih => exact suffixed_phrase ih h.ne_nil
  | @member ts t w _ ih =>
    intro rest
    rw [List.append_assoc, ih]
    exact suffixes.eq_1 t w rest
  | index _ _ iht ihi => exact index_phrase iht ihi
  | @trailing ts t m op hop _ ih =>
    intro rest
    rw [List.append_assoc, ih, List.singleton_append]
    cases m <;> first | (cases hop; rw [suffixes.eq_def]; rfl) | cases hop
  | emptyCall _ ih =>
    intro rest
    rw [List.append_assoc, ih]
    exact suffixes.eq_3 _ rest
  | firstArgument _ ha ihf iha => exact firstArgument_phrase ihf iha ha.ne_nil ha.head?_ne_close
  | nextArgument _ ha ihf iha => exact nextArgument_phrase ihf iha ha.ne_nil
  | closedCall h ih =>
    intro rest
    obtain ⟨f, done, rfl⟩ := h.exists_call
    rw [List.append_assoc, List.singleton_append,
      ih f done _ rfl (endsExpression_of_separator (by simp) _)]
    exact arguments.eq_1 f done rest
  | ofSuffixed h ih => exact unary_phrase ih (h.head?_suffixed (by simp))
  | leading hop _ ih => exact leading_phrase hop ih
  | lift hn h ih => exact lift_phrase hn ih h.ne_nil
  | binary hop _ hright ihl ihr => exact binary_phrase hop ihl ihr hright.ne_nil
  | @ofOperand ts t _ ih =>
    intro rest hends
    rw [expression, operand_eq_some ih hends.1]
    split
    · rename_i heq
      cases heq
      exact absurd rfl (hends.2 _)
    · rfl
  | conditional _ _ _ ihc iha ihr => exact conditional_phrase ihc iha ihr

/-! ## Soundness -/

theorem eq_some_of_expect {m : Mark} {p : Parsed} {t : Tree} {rest : List Token}
    (h : Parsed.expect m p = some (t, rest)) : p = some (t, .mark m :: rest) := by
  unfold Parsed.expect at h
  split at h
  · split at h
    · rename_i heq
      cases h
      rw [heq]
    · cases h
  · cases h

/-- What is found is a phrase of the tokens in front. -/
def Sound (r : Rank) (ts : List Token) (p : Parsed) : Prop :=
  ∀ t rest, p = some (t, rest) → ∃ us, ts = us ++ rest ∧ Derives r us t

/-- What is found behind the beginning `us` of a phrase goes on with it. -/
def SoundAfter (r : Rank) (us ts : List Token) (p : Parsed) : Prop :=
  ∀ t rest, p = some (t, rest) → ∃ vs, ts = vs ++ rest ∧ Derives r (us ++ vs) t

theorem soundAfter_some {r : Rank} {us ts : List Token} {t : Tree} (h : Derives r us t) :
    SoundAfter r us ts (some (t, ts)) := by
  intro t' rest heq
  cases heq
  exact ⟨[], rfl, by simpa using h⟩

theorem soundAfter_none {r : Rank} {us ts : List Token} : SoundAfter r us ts none :=
  fun _ _ heq => nomatch heq

/-- A phrase goes on behind more of its tokens. -/
theorem SoundAfter.of_later {r : Rank} {us us' ts ts' : List Token} {p : Parsed}
    (h : SoundAfter r us' ts' p) (vs : List Token) (hus : us' = us ++ vs) (hts : ts = vs ++ ts') :
    SoundAfter r us ts p := by
  subst hus hts
  intro t rest heq
  obtain ⟨ws, rfl, hws⟩ := h t rest heq
  exact ⟨vs ++ ws, by simp, by simpa using hws⟩

theorem SoundAfter.sound {r : Rank} {us ts ts' : List Token} {p : Parsed}
    (h : SoundAfter r us ts p) (hts : ts' = us ++ ts) : Sound r ts' p := by
  subst hts
  intro t rest heq
  obtain ⟨vs, rfl, hvs⟩ := h t rest heq
  exact ⟨us ++ vs, by simp, hvs⟩

theorem sound_none {r : Rank} {ts : List Token} : Sound r ts none :=
  fun _ _ heq => nomatch heq

section Layers

-- expressions of fewer tokens are sound, and everything else is built from them
variable {bound : Nat}
  (hbound : ∀ ts : List Token, ts.length < bound → Sound .expression ts (expression ts))

include hbound

theorem primary_sound {ts : List Token} (hts : ts.length ≤ bound) :
    Sound .primary ts (primary ts) := by
  intro t rest h
  rw [primary.eq_def] at h
  split at h
  · cases h
    exact ⟨[_], rfl, .word _⟩
  · cases h
    exact ⟨[_], rfl, .number _⟩
  · obtain ⟨us, rfl, hus⟩ := hbound _ hts _ _ (eq_some_of_expect h)
    exact ⟨.mark .openParen :: us ++ [.mark .closeParen], by simp, .group hus⟩
  · cases h

/-- What is found behind a suffixed phrase, or behind the beginning of a call, goes on with it. -/
def SuffixesSound (ts : List Token) : Prop :=
  (∀ us first, Derives .suffixed us first → SoundAfter .suffixed us ts (suffixes first ts)) ∧
    ∀ us f done, Derives .openCall us (.call f done) →
      SoundAfter .suffixed us ts (arguments f done ts)

theorem suffixes_step {ts : List Token} (hts : ts.length ≤ bound)
    (ih : ∀ rest : List Token, rest.length < ts.length → SuffixesSound rest) {us : List Token}
    {first : Tree} (hfirst : Derives .suffixed us first) :
    SoundAfter .suffixed us ts (suffixes first ts) := by
  rw [suffixes.eq_def]
  split
  · -- a member
    rename_i w rest
    simp only [List.length_cons] at ih hts
    have hlater := (ih rest (by omega)).1 _ _ (.member w hfirst)
    exact hlater.of_later [.mark .dot, .word w] rfl rfl
  · -- an index in brackets
    rename_i rest
    simp only [List.length_cons] at ih hts
    split
    · rename_i i rest' hi
      obtain ⟨vs, rfl, hvs⟩ := hbound rest (by omega) _ _ (eq_some_of_expect hi)
      split
      · have hlater := (ih rest' (by omega)).1 _ _ (.index hfirst hvs)
        exact hlater.of_later (.mark .openBracket :: vs ++ [.mark .closeBracket]) (by simp) (by simp)
      · exact soundAfter_none
    · exact soundAfter_none
  · -- a call without arguments
    rename_i rest
    simp only [List.length_cons] at ih hts
    have hlater := (ih rest (by omega)).1 _ _ (.emptyCall hfirst)
    exact hlater.of_later [.mark .openParen, .mark .closeParen] rfl rfl
  · -- a call with a first argument, behind which the other arguments follow
    rename_i rest _
    simp only [List.length_cons] at ih hts
    split
    · rename_i a rest' ha
      obtain ⟨vs, rfl, hvs⟩ := hbound rest (by omega) _ _ ha
      split
      · have hlater := (ih rest' (by omega)).2 _ _ _ (.firstArgument hfirst hvs)
        exact hlater.of_later (.mark .openParen :: vs) rfl rfl
      · exact soundAfter_none
    · exact soundAfter_none
  · -- another mark: an operator behind its operand, or the end
    rename_i m rest _ _ _ _
    simp only [List.length_cons] at ih hts
    split
    · rename_i op hop
      have hlater := (ih rest (by omega)).1 _ _ (.trailing hop hfirst)
      exact hlater.of_later [.mark m] rfl rfl
    · exact soundAfter_some hfirst
  · exact soundAfter_some hfirst

theorem arguments_step {ts : List Token} (hts : ts.length ≤ bound)
    (ih : ∀ rest : List Token, rest.length < ts.length → SuffixesSound rest) {us : List Token}
    {f : Tree} {done : List Tree} (hcall : Derives .openCall us (.call f done)) :
    SoundAfter .suffixed us ts (arguments f done ts) := by
  rw [arguments.eq_def]
  split
  · -- the call ends, and its own suffixes follow
    rename_i rest
    simp only [List.length_cons] at ih hts
    have hlater := (ih rest (by omega)).1 _ _ (.closedCall hcall)
    exact hlater.of_later [.mark .closeParen] rfl rfl
  · -- another argument
    rename_i rest
    simp only [List.length_cons] at ih hts
    split
    · rename_i a rest' ha
      obtain ⟨vs, rfl, hvs⟩ := hbound rest (by omega) _ _ ha
      split
      · have hlater := (ih rest' (by omega)).2 _ _ _ (.nextArgument hcall hvs)
        exact hlater.of_later (.mark .comma :: vs) rfl rfl
      · exact soundAfter_none
    · exact soundAfter_none
  · exact soundAfter_none

/-- Suffixes and arguments, by the number of tokens left. -/
theorem suffixes_sound (ts : List Token) (hts : ts.length ≤ bound) : SuffixesSound ts := by
  induction hk : ts.length using Nat.strongRecOn generalizing ts with
  | _ k ih =>
    subst hk
    have hshorter : ∀ rest : List Token, rest.length < ts.length → SuffixesSound rest :=
      fun rest hrest => ih rest.length hrest rest (by omega) rfl
    exact ⟨fun us first => suffixes_step hbound hts hshorter,
      fun us f done => arguments_step hbound hts hshorter⟩

theorem suffixed_sound {ts : List Token} (hts : ts.length ≤ bound) :
    Sound .suffixed ts (suffixed ts) := by
  rw [suffixed]
  split
  · rename_i first rest hfirst
    obtain ⟨us, rfl, hus⟩ := primary_sound hbound hts _ _ hfirst
    split
    · rename_i hlt
      have hlater := (suffixes_sound hbound rest (by omega)).1 us first (.ofPrimary hus)
      exact hlater.sound rfl
    · exact sound_none
  · exact sound_none

theorem unary_sound {ts : List Token} (hts : ts.length ≤ bound) :
    Sound (.operand unaryLevel) ts (operand unaryLevel ts) := by
  have hsuffixed : ∀ ts : List Token, ts.length ≤ bound →
      Sound (.operand unaryLevel) ts (suffixed ts) := by
    intro ts hts t rest h
    obtain ⟨us, hus, hd⟩ := suffixed_sound hbound hts t rest h
    exact ⟨us, hus, .ofSuffixed hd⟩
  induction ts with
  | nil =>
    rw [operand.eq_def, if_neg (Nat.lt_irrefl _)]
    exact hsuffixed [] hts
  | cons first ts ih =>
    rw [operand.eq_def, if_neg (Nat.lt_irrefl _)]
    cases first with
    | word w | number w => exact hsuffixed _ hts
    | mark m =>
      cases hop : m.leading? with
      | none => simpa only [hop] using hsuffixed _ hts
      | some op =>
        simp only [hop]
        split
        · rename_i t rest ht
          obtain ⟨us, hus, hd⟩ := ih (Nat.le_of_succ_le hts) t rest ht
          intro t' rest' heq
          cases heq
          exact ⟨.mark m :: us, by rw [hus]; rfl, .leading hop hd⟩
        · exact sound_none

omit hbound in
/-- The operators of a level, given that operands of the next one are sound. -/
theorem operators_sound {n : Nat}
    (hnext : ∀ ts : List Token, ts.length ≤ bound →
      Sound (.operand (n + 1)) ts (operand (n + 1) ts))
    (ts : List Token) (hts : ts.length ≤ bound) :
    ∀ us left, Derives (.operand n) us left →
      SoundAfter (.operand n) us ts (operators n left ts) := by
  induction hk : ts.length using Nat.strongRecOn generalizing ts with
  | _ k ih =>
    subst hk
    intro us left hleft
    rw [operators.eq_def]
    split
    · rename_i m rest
      simp only [List.length_cons] at ih hts
      split
      · rename_i op hop
        split
        · -- an operator of this level: its right operand is of the next one, and more may follow
          rename_i hlevel
          subst hlevel
          split
          · rename_i right rest' hright
            obtain ⟨vs, rfl, hvs⟩ := hnext rest (by omega) _ _ hright
            split
            · rename_i hlt
              have hlater := ih rest'.length (by omega) rest' (by omega) rfl _ _
                (.binary hop hleft hvs)
              exact hlater.of_later (.mark m :: vs) rfl rfl
            · exact soundAfter_none
          · exact soundAfter_none
        · exact soundAfter_some hleft
      · exact soundAfter_some hleft
    · exact soundAfter_some hleft

theorem operand_sound {n : Nat} (hn : n ≤ unaryLevel) {ts : List Token} (hts : ts.length ≤ bound) :
    Sound (.operand n) ts (operand n ts) := by
  induction hk : unaryLevel - n generalizing n ts with
  | zero =>
    obtain rfl : n = unaryLevel := by omega
    exact unary_sound hbound hts
  | succ k ih =>
    have hlt : n < unaryLevel := by omega
    have hnext : ∀ ts : List Token, ts.length ≤ bound →
        Sound (.operand (n + 1)) ts (operand (n + 1) ts) :=
      fun ts hts => ih hlt hts (by omega)
    rw [operand.eq_def, if_pos hlt]
    split
    · rename_i left rest hleft
      obtain ⟨us, rfl, hus⟩ := hnext ts hts _ _ hleft
      split
      · have hlater := operators_sound hnext rest (by omega) us left (.lift hlt hus)
        exact hlater.sound rfl
      · exact sound_none
    · exact sound_none

end Layers

/-- Whatever is found is derived by the grammar. -/
theorem expression_sound (ts : List Token) : Sound .expression ts (expression ts) := by
  induction hk : ts.length using Nat.strongRecOn generalizing ts with
  | _ k ih =>
    subst hk
    have hbound : ∀ us : List Token, us.length < ts.length →
        Sound .expression us (expression us) := fun us hus => ih us.length hus us rfl
    have hoperand := operand_sound hbound (n := 1) (by decide) (Nat.le_refl ts.length)
    rw [expression]
    split
    · -- a question mark behind the first operand: three phrases, each of fewer tokens
      rename_i condition rest hcondition
      obtain ⟨us, hus, hc⟩ := hoperand _ _ hcondition
      split
      · rename_i hlt
        split
        · rename_i accept rest' haccept
          obtain ⟨vs, hvs, ha⟩ := hbound rest hlt _ _ (eq_some_of_expect haccept)
          split
          · rename_i hlt'
            split
            · rename_i reject rest'' hreject
              obtain ⟨ws, hws, hr⟩ := hbound rest' (by omega) _ _ hreject
              intro t rest₀ heq
              cases heq
              exact ⟨us ++ .mark .question :: vs ++ .mark .colon :: ws, by simp [hus, hvs, hws],
                .conditional hc ha hr⟩
            · exact sound_none
          · exact sound_none
        · exact sound_none
      · exact sound_none
    · intro t rest h
      obtain ⟨us, hus, hd⟩ := hoperand t rest h
      exact ⟨us, hus, .ofOperand hd⟩

/-- **The parser decides the grammar**; in particular the grammar derives at most one tree. -/
theorem parse_eq_some_iff {ts : List Token} {t : Tree} :
    parse ts = some t ↔ Derives .expression ts t := by
  constructor
  · intro h
    unfold parse at h
    split at h
    · rename_i heq
      cases h
      obtain ⟨us, rfl, hus⟩ := expression_sound ts _ _ heq
      simpa using hus
    · cases h
  · intro h
    have hfound := h.found [] ⟨trivial, nofun⟩
    rw [List.append_nil] at hfound
    rw [parse, hfound]

end CrossShader.Reader
