import CrossShader.Proofs.Reader.Parser

/-!
# The expression grammar with casts

The expression grammar, extended by casts: the name of a type in parentheses before an operand.  Which
words are types has to be known; in parentheses, they are nothing but casts.

* `castTree` — the tree of a cast.
* `Derives` — the rules; `derives_iff_of_no_types` — without types they are those of the grammar without
  casts.
* `Parses` — how a phrase is read from left to right, one token ahead; `Parses.unique` — there is at most
  one way.
* `Derives.found` — whatever the grammar derives is read; `Derives.unique` — so it derives at most one tree.
* `Derives.isOperation` — a cast takes the suffixes of what follows it.
-/

set_option autoImplicit false

namespace CrossShader.Reader.Cast

/-- The tree of a cast: the call of a type in parentheses. -/
def castTree (type : String) (operand : Tree) : Tree := .call (.name ("(" ++ type ++ ")")) [operand]

/-- The rules of the grammar, given the words that are types. -/
inductive Derives (isType : List Char → Bool) : Rank → List Token → Tree → Prop
  | word (w : List Char) : Derives isType .primary [.word w] (wordTree w)
  | number (w : List Char) : Derives isType .primary [.number w] (.number (String.ofList w))
  | group {ts : List Token} {t : Tree} : Derives isType .expression ts t →
      (∀ w, ts = [.word w] → isType w = false) →
      Derives isType .primary (.mark .openParen :: ts ++ [.mark .closeParen]) t
  | ofPrimary {ts : List Token} {t : Tree} : Derives isType .primary ts t →
      Derives isType .suffixed ts t
  | member {ts : List Token} {t : Tree} (w : List Char) : Derives isType .suffixed ts t →
      Derives isType .suffixed (ts ++ [.mark .dot, .word w]) (.member t (String.ofList w))
  | index {ts us : List Token} {t i : Tree} : Derives isType .suffixed ts t →
      Derives isType .expression us i →
      Derives isType .suffixed (ts ++ .mark .openBracket :: us ++ [.mark .closeBracket]) (.index t i)
  | trailing {ts : List Token} {t : Tree} {m : Mark} {op : UnaryOp} : m.trailing? = some op →
      Derives isType .suffixed ts t → Derives isType .suffixed (ts ++ [.mark m]) (.unary op t)
  | emptyCall {ts : List Token} {f : Tree} : Derives isType .suffixed ts f →
      Derives isType .suffixed (ts ++ [.mark .openParen, .mark .closeParen]) (.call f [])
  | firstArgument {ts us : List Token} {f a : Tree} : Derives isType .suffixed ts f →
      Derives isType .expression us a →
      Derives isType .openCall (ts ++ .mark .openParen :: us) (.call f [a])
  | nextArgument {ts us : List Token} {f a : Tree} {arguments : List Tree} :
      Derives isType .openCall ts (.call f arguments) → Derives isType .expression us a →
      Derives isType .openCall (ts ++ .mark .comma :: us) (.call f (arguments ++ [a]))
  | closedCall {ts : List Token} {t : Tree} : Derives isType .openCall ts t →
      Derives isType .suffixed (ts ++ [.mark .closeParen]) t
  | ofSuffixed {ts : List Token} {t : Tree} : Derives isType .suffixed ts t →
      Derives isType (.operand unaryLevel) ts t
  | leading {ts : List Token} {t : Tree} {m : Mark} {op : Tree → Tree} : m.leading? = some op →
      Derives isType (.operand unaryLevel) ts t →
      Derives isType (.operand unaryLevel) (.mark m :: ts) (op t)
  | cast {ts : List Token} {t : Tree} {w : List Char} : isType w = true →
      Derives isType (.operand unaryLevel) ts t →
      Derives isType (.operand unaryLevel)
        (.mark .openParen :: .word w :: .mark .closeParen :: ts) (castTree (String.ofList w) t)
  | lift {n : Nat} {ts : List Token} {t : Tree} : n < unaryLevel →
      Derives isType (.operand (n + 1)) ts t → Derives isType (.operand n) ts t
  | binary {ts us : List Token} {left right : Tree} {m : Mark} {op : BinaryOp} :
      m.binary? = some op → Derives isType (.operand (level op)) ts left →
      Derives isType (.operand (level op + 1)) us right →
      Derives isType (.operand (level op)) (ts ++ .mark m :: us) (.binary op left right)
  | ofOperand {ts : List Token} {t : Tree} : Derives isType (.operand 1) ts t →
      Derives isType .expression ts t
  | conditional {ts us vs : List Token} {c a r : Tree} : Derives isType (.operand 1) ts c →
      Derives isType .expression us a → Derives isType .expression vs r →
      Derives isType .expression (ts ++ .mark .question :: us ++ .mark .colon :: vs)
        (.conditional c a r)

/-- **Without types there are no casts:** the grammar extends the one that has none. -/
theorem derives_iff_of_no_types {r : Rank} {ts : List Token} {t : Tree} :
    Derives (fun _ => false) r ts t ↔ Reader.Derives r ts t := by
  constructor
  · intro h
    induction h with
    | word w => exact .word w
    | number w => exact .number w
    | group _ _ ih => exact .group ih
    | ofPrimary _ ih => exact .ofPrimary ih
    | member w _ ih => exact .member w ih
    | index _ _ iht ihi => exact .index iht ihi
    | trailing hop _ ih => exact .trailing hop ih
    | emptyCall _ ih => exact .emptyCall ih
    | firstArgument _ _ ihf iha => exact .firstArgument ihf iha
    | nextArgument _ _ ihf iha => exact .nextArgument ihf iha
    | closedCall _ ih => exact .closedCall ih
    | ofSuffixed _ ih => exact .ofSuffixed ih
    | leading hop _ ih => exact .leading hop ih
    | cast htype => cases htype
    | lift hn _ ih => exact .lift hn ih
    | binary hop _ _ ihl ihr => exact .binary hop ihl ihr
    | ofOperand _ ih => exact .ofOperand ih
    | conditional _ _ _ ihc iha ihr => exact .conditional ihc iha ihr
  · intro h
    induction h with
    | word w => exact .word w
    | number w => exact .number w
    | group _ ih => exact .group ih fun _ _ => rfl
    | ofPrimary _ ih => exact .ofPrimary ih
    | member w _ ih => exact .member w ih
    | index _ _ iht ihi => exact .index iht ihi
    | trailing hop _ ih => exact .trailing hop ih
    | emptyCall _ ih => exact .emptyCall ih
    | firstArgument _ _ ihf iha => exact .firstArgument ihf iha
    | nextArgument _ _ ihf iha => exact .nextArgument ihf iha
    | closedCall _ ih => exact .closedCall ih
    | ofSuffixed _ ih => exact .ofSuffixed ih
    | leading hop _ ih => exact .leading hop ih
    | lift hn _ ih => exact .lift hn ih
    | binary hop _ _ ihl ihr => exact .binary hop ihl ihr
    | ofOperand _ ih => exact .ofOperand ih
    | conditional _ _ _ ihc iha ihr => exact .conditional ihc iha ihr

/-! ## Reading from left to right -/

/-- What a reader is looking for. -/
inductive Task where
  | expression
  | operand (level : Nat)
  /-- The operators of a level behind their left operand. -/
  | operators (level : Nat) (left : Tree)
  | suffixed
  /-- The suffixes behind their base. -/
  | suffixes (base : Tree)
  /-- The rest of an argument list, and the suffixes of the call. -/
  | arguments (function : Tree) (done : List Tree)

/-- Whether a reader expects the start of a phrase. -/
def Task.startsPhrase : Task → Bool
  | .expression | .operand _ | .suffixed => true
  | .operators .. | .suffixes _ | .arguments .. => false

/-- Whether a cast comes next. -/
def startsCast (isType : List Char → Bool) : List Token → Bool
  | .mark .openParen :: .word w :: .mark .closeParen :: _ => isType w
  | _ => false

/-- Whether a suffix comes next. -/
def startsSuffix : List Token → Bool
  | .mark m :: _ => m == .dot || m == .openBracket || m == .openParen || m.trailing?.isSome
  | _ => false

/-- A reader finds a tree at the start of some tokens, and leaves the tokens behind it. -/
inductive Parses (isType : List Char → Bool) : Task → List Token → Tree → List Token → Prop
  | plain {ts rest : List Token} {t : Tree} : Parses isType (.operand 1) ts t rest →
      rest.head? ≠ some (.mark .question) → Parses isType .expression ts t rest
  | conditional {ts us vs rest : List Token} {c a r : Tree} :
      Parses isType (.operand 1) ts c (.mark .question :: us) →
      Parses isType .expression us a (.mark .colon :: vs) →
      Parses isType .expression vs r rest → Parses isType .expression ts (.conditional c a r) rest
  | level {n : Nat} {ts us rest : List Token} {left t : Tree} : n < unaryLevel →
      Parses isType (.operand (n + 1)) ts left us → Parses isType (.operators n left) us t rest →
      Parses isType (.operand n) ts t rest
  | leading {m : Mark} {op : Tree → Tree} {ts rest : List Token} {t : Tree} :
      m.leading? = some op → Parses isType (.operand unaryLevel) ts t rest →
      Parses isType (.operand unaryLevel) (.mark m :: ts) (op t) rest
  | cast {w : List Char} {ts rest : List Token} {t : Tree} : isType w = true →
      Parses isType (.operand unaryLevel) ts t rest →
      Parses isType (.operand unaryLevel)
        (.mark .openParen :: .word w :: .mark .closeParen :: ts) (castTree (String.ofList w) t) rest
  | unsigned {ts rest : List Token} {t : Tree} : Parses isType .suffixed ts t rest →
      Parses isType (.operand unaryLevel) ts t rest
  | operator {m : Mark} {op : BinaryOp} {ts us rest : List Token} {left right t : Tree} :
      m.binary? = some op → Parses isType (.operand (Reader.level op + 1)) ts right us →
      Parses isType (.operators (Reader.level op) (.binary op left right)) us t rest →
      Parses isType (.operators (Reader.level op) left) (.mark m :: ts) t rest
  | noOperator {n : Nat} {left : Tree} {ts : List Token} :
      (∀ m us op, ts = .mark m :: us → m.binary? = some op → Reader.level op ≠ n) →
      Parses isType (.operators n left) ts left ts
  | word {w : List Char} {ts rest : List Token} {t : Tree} :
      Parses isType (.suffixes (wordTree w)) ts t rest →
      Parses isType .suffixed (.word w :: ts) t rest
  | number {w : List Char} {ts rest : List Token} {t : Tree} :
      Parses isType (.suffixes (.number (String.ofList w))) ts t rest →
      Parses isType .suffixed (.number w :: ts) t rest
  | group {ts us rest : List Token} {inner t : Tree} :
      startsCast isType (.mark .openParen :: ts) = false →
      Parses isType .expression ts inner (.mark .closeParen :: us) →
      Parses isType (.suffixes inner) us t rest →
      Parses isType .suffixed (.mark .openParen :: ts) t rest
  | member {w : List Char} {ts rest : List Token} {base t : Tree} :
      Parses isType (.suffixes (.member base (String.ofList w))) ts t rest →
      Parses isType (.suffixes base) (.mark .dot :: .word w :: ts) t rest
  | index {ts us rest : List Token} {base i t : Tree} :
      Parses isType .expression ts i (.mark .closeBracket :: us) →
      Parses isType (.suffixes (.index base i)) us t rest →
      Parses isType (.suffixes base) (.mark .openBracket :: ts) t rest
  | trailing {m : Mark} {op : UnaryOp} {ts rest : List Token} {base t : Tree} :
      m.trailing? = some op → Parses isType (.suffixes (.unary op base)) ts t rest →
      Parses isType (.suffixes base) (.mark m :: ts) t rest
  | emptyCall {ts rest : List Token} {f t : Tree} :
      Parses isType (.suffixes (.call f [])) ts t rest →
      Parses isType (.suffixes f) (.mark .openParen :: .mark .closeParen :: ts) t rest
  | call {ts us rest : List Token} {f a t : Tree} : ts.head? ≠ some (.mark .closeParen) →
      Parses isType .expression ts a us → Parses isType (.arguments f [a]) us t rest →
      Parses isType (.suffixes f) (.mark .openParen :: ts) t rest
  | noSuffix {ts : List Token} {base : Tree} : startsSuffix ts = false →
      Parses isType (.suffixes base) ts base ts
  | lastArgument {ts rest : List Token} {f t : Tree} {done : List Tree} :
      Parses isType (.suffixes (.call f done)) ts t rest →
      Parses isType (.arguments f done) (.mark .closeParen :: ts) t rest
  | nextArgument {ts us rest : List Token} {f a t : Tree} {done : List Tree} :
      Parses isType .expression ts a us → Parses isType (.arguments f (done ++ [a])) us t rest →
      Parses isType (.arguments f done) (.mark .comma :: ts) t rest

variable {isType : List Char → Bool}

namespace Parses

/-- **There is one way to read on.** -/
theorem unique {task : Task} {ts rest rest' : List Token} {t t' : Tree}
    (h : Parses isType task ts t rest) (h' : Parses isType task ts t' rest') :
    t = t' ∧ rest = rest' := by
  induction h generalizing t' rest' with
  | plain _ hquestion ih =>
    cases h' with
    | plain h _ => exact ih h
    | conditional h _ _ =>
      obtain ⟨-, rfl⟩ := ih h
      exact absurd rfl hquestion
  | conditional _ _ _ ihc iha ihr =>
    cases h' with
    | plain h hquestion =>
      obtain ⟨-, rfl⟩ := ihc h
      exact absurd rfl hquestion
    | conditional hc ha hr =>
      obtain ⟨rfl, heq⟩ := ihc hc
      cases heq
      obtain ⟨rfl, heq⟩ := iha ha
      cases heq
      obtain ⟨rfl, rfl⟩ := ihr hr
      exact ⟨rfl, rfl⟩
  | level hn _ _ ihleft ih =>
    cases h' with
    | level _ hleft h =>
      obtain ⟨rfl, rfl⟩ := ihleft hleft
      exact ih h
    | leading | cast | unsigned => exact absurd hn (Nat.lt_irrefl _)
  | leading hop _ ih =>
    cases h' with
    | level hn => exact absurd hn (Nat.lt_irrefl _)
    | leading hop' h =>
      obtain ⟨rfl, rfl⟩ := ih h
      cases hop.symm.trans hop'
      exact ⟨rfl, rfl⟩
    | cast => cases hop
    | unsigned h =>
      cases h
      cases hop
  | cast htype _ ih =>
    cases h' with
    | level hn => exact absurd hn (Nat.lt_irrefl _)
    | leading hop => cases hop
    | cast _ h =>
      obtain ⟨rfl, rfl⟩ := ih h
      exact ⟨rfl, rfl⟩
    | unsigned h =>
      cases h with
      | group hcast => cases htype.symm.trans hcast
  | unsigned h ih =>
    cases h' with
    | level hn => exact absurd hn (Nat.lt_irrefl _)
    | leading hop =>
      cases h
      cases hop
    | cast htype =>
      cases h with
      | group hcast => cases htype.symm.trans hcast
    | unsigned h' => exact ih h'
  | operator hop _ _ ihright ih =>
    generalize hn : Reader.level _ = n at h'
    cases h' with
    | operator hop' hright h =>
      cases hop.symm.trans hop'
      obtain ⟨rfl, rfl⟩ := ihright hright
      exact ih h
    | noOperator hnone => exact absurd hn (hnone _ _ _ rfl hop)
  | noOperator hnone =>
    cases h' with
    | operator hop => exact absurd rfl (hnone _ _ _ rfl hop)
    | noOperator => exact ⟨rfl, rfl⟩
  | word _ ih =>
    cases h' with
    | word h => exact ih h
  | number _ ih =>
    cases h' with
    | number h => exact ih h
  | group _ _ _ ihinner ih =>
    cases h' with
    | group _ hinner h =>
      obtain ⟨rfl, heq⟩ := ihinner hinner
      cases heq
      exact ih h
  | member _ ih =>
    cases h' with
    | member h => exact ih h
    | trailing hop => cases hop
    | noSuffix hnone => cases hnone
  | index _ _ ihi ih =>
    cases h' with
    | index hi h =>
      obtain ⟨rfl, heq⟩ := ihi hi
      cases heq
      exact ih h
    | trailing hop => cases hop
    | noSuffix hnone => cases hnone
  | trailing hop _ ih =>
    cases h' with
    | member | index | emptyCall | call => cases hop
    | trailing hop' h =>
      cases hop.symm.trans hop'
      exact ih h
    | noSuffix hnone => simp [startsSuffix, hop] at hnone
  | emptyCall _ ih =>
    cases h' with
    | trailing hop => cases hop
    | emptyCall h => exact ih h
    | call hclose => exact absurd rfl hclose
    | noSuffix hnone => cases hnone
  | call hclose _ _ iha ih =>
    cases h' with
    | trailing hop => cases hop
    | emptyCall => exact absurd rfl hclose
    | call _ ha h =>
      obtain ⟨rfl, rfl⟩ := iha ha
      exact ih h
    | noSuffix hnone => cases hnone
  | noSuffix hnone =>
    cases h' with
    | member | index | emptyCall | call => cases hnone
    | trailing hop => simp [startsSuffix, hop] at hnone
    | noSuffix => exact ⟨rfl, rfl⟩
  | lastArgument _ ih =>
    cases h' with
    | lastArgument h => exact ih h
  | nextArgument _ _ iha ih =>
    cases h' with
    | nextArgument ha h =>
      obtain ⟨rfl, rfl⟩ := iha ha
      exact ih h

/-- Phrases do not start with a closing parenthesis. -/
theorem head?_ne_close {task : Task} {ts rest : List Token} {t : Tree}
    (h : Parses isType task ts t rest) (htask : task.startsPhrase = true) :
    ts.head? ≠ some (.mark .closeParen) := by
  induction h with
  | plain _ _ ih | conditional _ _ _ ih _ _ | level _ _ _ ih _ | unsigned _ ih => exact ih rfl
  | leading hop =>
    intro heq
    cases heq
    cases hop
  | cast | word | number | group => simp
  | _ => cases htask

end Parses

/-! ## Completeness -/

/-- How a reader gets past a phrase: it goes on behind the phrase with the phrase's tree. -/
def Found (isType : List Char → Bool) : Rank → List Token → Tree → Prop
  | .primary, ts, t | .suffixed, ts, t => ∀ rest t' rest', Parses isType (.suffixes t) rest t' rest' →
      Parses isType .suffixed (ts ++ rest) t' rest'
  | .openCall, ts, t => ∀ f done rest t' rest', t = .call f done → EndsExpression rest →
      Parses isType (.arguments f done) rest t' rest' → Parses isType .suffixed (ts ++ rest) t' rest'
  | .operand n, ts, t => ∀ rest t' rest', Ends (n + 1) rest →
      Parses isType (.operators n t) rest t' rest' → Parses isType (.operand n) (ts ++ rest) t' rest'
  | .expression, ts, t => ∀ rest, EndsExpression rest →
      Parses isType .expression (ts ++ rest) t rest

theorem startsSuffix_of_ends {n : Nat} {rest : List Token} (h : Ends n rest) :
    startsSuffix rest = false := by
  unfold startsSuffix
  split
  · obtain ⟨htrailing, hdot, hbracket, hparen, -⟩ := h
    simp [htrailing, hdot, hbracket, hparen]
  · rfl

theorem noOperator_of_ends {n : Nat} {rest : List Token} (h : Ends n rest) (t : Tree) :
    Parses isType (.operators n t) rest t rest := by
  refine .noOperator fun m us op hrest hop => ?_
  subst hrest
  exact Nat.ne_of_lt (h.2.2.2.2 op hop)

/-- No operator binds as tightly as a sign. -/
theorem eq_of_unaryOperators {rest rest' : List Token} {t t' : Tree}
    (h : Parses isType (.operators unaryLevel t) rest t' rest') : t = t' ∧ rest = rest' :=
  Parses.unique (.noOperator fun _ _ op _ _ => Nat.ne_of_lt (level_lt_unaryLevel op)) h

namespace Found

variable {ts us vs : List Token} {t left right : Tree}

/-- An operand of a level, if no operator of the level follows. -/
theorem operand {n : Nat} (h : Found isType (.operand n) ts t) {rest : List Token}
    (hends : Ends n rest) : Parses isType (.operand n) (ts ++ rest) t rest :=
  h rest t rest (hends.mono (Nat.le_succ n)) (noOperator_of_ends hends t)

theorem ofSuffixed (h : Found isType .suffixed ts t) : Found isType (.operand unaryLevel) ts t := by
  intro rest t' rest' hends hoperators
  obtain ⟨rfl, rfl⟩ := eq_of_unaryOperators hoperators
  exact .unsigned (h rest t rest (.noSuffix (startsSuffix_of_ends hends)))

theorem lift {n : Nat} (hn : n < unaryLevel) (h : Found isType (.operand (n + 1)) ts t) :
    Found isType (.operand n) ts t :=
  fun _ _ _ hends hoperators => .level hn (h.operand hends) hoperators

theorem ofOperand (h : Found isType (.operand 1) ts t) : Found isType .expression ts t := by
  intro rest hends
  refine .plain (h.operand hends.1) fun hquestion => ?_
  obtain ⟨rest', rfl⟩ := List.head?_eq_some_iff.1 hquestion
  exact hends.2 rest' rfl

/-- A word is read as an expression. -/
theorem word (w : List Char) : Found isType .expression [.word w] (wordTree w) := by
  have hsuffixed : Found isType .suffixed [.word w] (wordTree w) := fun _ _ _ h => .word h
  have hlevels : ∀ k ≤ unaryLevel, Found isType (.operand (unaryLevel - k)) [.word w] (wordTree w) := by
    intro k hk
    induction k with
    | zero => exact hsuffixed.ofSuffixed
    | succ k ih =>
      have hnext := ih (Nat.le_of_succ_le hk)
      rw [show unaryLevel - k = unaryLevel - (k + 1) + 1 by omega] at hnext
      exact hnext.lift (by omega)
  exact (hlevels 10 (by decide)).ofOperand

/-- An expression in parentheses that is not the name of a type is not taken for a cast. -/
theorem startsCast_eq_false (h : Found isType .expression ts t)
    (htype : ∀ w, ts = [.word w] → isType w = false) (rest : List Token) :
    startsCast isType (.mark .openParen :: (ts ++ .mark .closeParen :: rest)) = false := by
  unfold startsCast
  split
  · rename_i w us heq
    -- the expression is the word, which is as far as a reader gets
    have htokens : ts ++ .mark .closeParen :: rest = .word w :: .mark .closeParen :: us :=
      (List.cons.inj heq).2
    have hread := h (.mark .closeParen :: rest) (endsExpression_of_separator (by simp) rest)
    rw [htokens] at hread
    have hword : Found isType .expression [.word w] (wordTree w) := Found.word w
    obtain ⟨-, hrest⟩ := hread.unique (hword _ (endsExpression_of_separator (by simp) us))
    rw [hrest] at htokens
    exact htype w (List.append_cancel_right htokens)
  · rfl

theorem group (h : Found isType .expression ts t) (htype : ∀ w, ts = [.word w] → isType w = false) :
    Found isType .primary (.mark .openParen :: ts ++ [.mark .closeParen]) t := by
  intro rest t' rest' hsuffixes
  have hsplit : .mark .openParen :: ts ++ [.mark .closeParen] ++ rest =
      Token.mark .openParen :: (ts ++ .mark .closeParen :: rest) := by simp
  rw [hsplit]
  exact .group (h.startsCast_eq_false htype rest)
    (h _ (endsExpression_of_separator (by simp) rest)) hsuffixes

theorem index {i : Tree} (h : Found isType .suffixed ts t) (hi : Found isType .expression us i) :
    Found isType .suffixed (ts ++ .mark .openBracket :: us ++ [.mark .closeBracket])
      (.index t i) := by
  intro rest t' rest' hsuffixes
  have hsplit : ts ++ .mark .openBracket :: us ++ [.mark .closeBracket] ++ rest =
      ts ++ .mark .openBracket :: (us ++ .mark .closeBracket :: rest) := by simp
  rw [hsplit]
  exact h _ _ _ (.index (hi _ (endsExpression_of_separator (by simp) rest)) hsuffixes)

theorem firstArgument {f a : Tree} (hf : Found isType .suffixed ts f)
    (ha : Found isType .expression us a) :
    Found isType .openCall (ts ++ .mark .openParen :: us) (.call f [a]) := by
  intro f' done rest t' rest' heq hends harguments
  cases heq
  have hread := ha rest hends
  rw [List.append_assoc]
  exact hf _ _ _ (.call (hread.head?_ne_close rfl) hread harguments)

theorem nextArgument {f a : Tree} {arguments : List Tree}
    (hf : Found isType .openCall ts (.call f arguments)) (ha : Found isType .expression us a) :
    Found isType .openCall (ts ++ .mark .comma :: us) (.call f (arguments ++ [a])) := by
  intro f' done rest t' rest' heq hends harguments
  cases heq
  rw [List.append_assoc]
  exact hf f arguments _ _ _ rfl (endsExpression_of_separator (by simp) _)
    (.nextArgument (ha rest hends) harguments)

theorem leading {m : Mark} {op : Tree → Tree} (hop : m.leading? = some op)
    (h : Found isType (.operand unaryLevel) ts t) :
    Found isType (.operand unaryLevel) (.mark m :: ts) (op t) := by
  intro rest t' rest' hends hoperators
  obtain ⟨rfl, rfl⟩ := eq_of_unaryOperators hoperators
  exact .leading hop (h rest t rest hends (.noOperator fun _ _ op _ _ =>
    Nat.ne_of_lt (level_lt_unaryLevel op)))

theorem cast {w : List Char} (hw : isType w = true) (h : Found isType (.operand unaryLevel) ts t) :
    Found isType (.operand unaryLevel) (.mark .openParen :: .word w :: .mark .closeParen :: ts)
      (castTree (String.ofList w) t) := by
  intro rest t' rest' hends hoperators
  obtain ⟨rfl, rfl⟩ := eq_of_unaryOperators hoperators
  exact .cast hw (h rest t rest hends (.noOperator fun _ _ op _ _ =>
    Nat.ne_of_lt (level_lt_unaryLevel op)))

theorem binary {m : Mark} {op : BinaryOp} (hop : m.binary? = some op)
    (hleft : Found isType (.operand (level op)) ts left)
    (hright : Found isType (.operand (level op + 1)) us right) :
    Found isType (.operand (level op)) (ts ++ .mark m :: us) (.binary op left right) := by
  intro rest t' rest' hends hoperators
  rw [List.append_assoc]
  exact hleft _ _ _ (ends_of_binary? hop _) (.operator hop (hright.operand hends) hoperators)

theorem conditional {c a r : Tree} (hc : Found isType (.operand 1) ts c)
    (ha : Found isType .expression us a) (hr : Found isType .expression vs r) :
    Found isType .expression (ts ++ .mark .question :: us ++ .mark .colon :: vs)
      (.conditional c a r) := by
  intro rest hends
  have hsplit : ts ++ .mark .question :: us ++ .mark .colon :: vs ++ rest =
      ts ++ .mark .question :: (us ++ .mark .colon :: (vs ++ rest)) := by simp
  rw [hsplit]
  exact .conditional (hc.operand (ends_question 1 _))
    (ha _ (endsExpression_of_separator (by simp) _)) (hr rest hends)

end Found

namespace Derives

theorem exists_call {ts : List Token} {t : Tree} (h : Derives isType .openCall ts t) :
    ∃ f done, t = .call f done := by
  cases h with
  | firstArgument => exact ⟨_, _, rfl⟩
  | nextArgument => exact ⟨_, _, rfl⟩

/-- **Whatever the grammar derives is read.** -/
theorem found {r : Rank} {ts : List Token} {t : Tree} (h : Derives isType r ts t) :
    Found isType r ts t := by
  induction h with
  | word w => exact fun _ _ _ hsuffixes => .word hsuffixes
  | number w => exact fun _ _ _ hsuffixes => .number hsuffixes
  | group _ htype ih => exact ih.group htype
  | ofPrimary _ ih => exact ih
  | member w _ ih =>
    intro rest t' rest' hsuffixes
    rw [List.append_assoc]
    exact ih _ _ _ (.member hsuffixes)
  | index _ _ iht ihi => exact iht.index ihi
  | trailing hop _ ih =>
    intro rest t' rest' hsuffixes
    rw [List.append_assoc]
    exact ih _ _ _ (.trailing hop hsuffixes)
  | emptyCall _ ih =>
    intro rest t' rest' hsuffixes
    rw [List.append_assoc]
    exact ih _ _ _ (.emptyCall hsuffixes)
  | firstArgument _ _ ihf iha => exact ihf.firstArgument iha
  | nextArgument _ _ ihf iha => exact ihf.nextArgument iha
  | closedCall h ih =>
    intro rest t' rest' hsuffixes
    obtain ⟨f, done, rfl⟩ := h.exists_call
    rw [List.append_assoc]
    exact ih f done _ _ _ rfl (endsExpression_of_separator (by simp) _) (.lastArgument hsuffixes)
  | ofSuffixed _ ih => exact ih.ofSuffixed
  | leading hop _ ih => exact ih.leading hop
  | cast htype _ ih => exact ih.cast htype
  | lift hn _ ih => exact ih.lift hn
  | binary hop _ _ ihl ihr => exact ihl.binary hop ihr
  | ofOperand _ ih => exact ih.ofOperand
  | conditional _ _ _ ihc iha ihr => exact ihc.conditional iha ihr

theorem parses {ts : List Token} {t : Tree} (h : Derives isType .expression ts t) :
    Parses isType .expression ts t [] := by
  have hread := h.found [] ⟨trivial, nofun⟩
  rwa [List.append_nil] at hread

/-- **The grammar derives at most one tree.** -/
theorem unique {ts : List Token} {t t' : Tree} (h : Derives isType .expression ts t)
    (h' : Derives isType .expression ts t') : t = t' :=
  (h.parses.unique h'.parses).1

/-- What a phrase with suffixes may start with. -/
theorem head?_suffixed {ts : List Token} {t : Tree} (h : Derives isType .suffixed ts t) :
    ts.head?.any Reader.Derives.startsPrimary = true := by
  have hread := h.found [] t [] (.noSuffix rfl)
  rw [List.append_nil] at hread
  cases hread <;> rfl

end Derives

/-! ## Casts and suffixes -/

/-- The trees of binary operators, conditionals and casts. -/
inductive IsOperation : Tree → Prop
  | binary (op : BinaryOp) (left right : Tree) : IsOperation (.binary op left right)
  | conditional (c a r : Tree) : IsOperation (.conditional c a r)
  | cast (type : String) (operand : Tree) : IsOperation (castTree type operand)

/-- What a cast at the start makes of a tree. -/
def Task.CastFirst (isType : List Char → Bool) (ts : List Token) (t : Tree) : Task → Prop
  | .expression | .operand _ => startsCast isType ts = true → IsOperation t
  | .operators _ left => IsOperation left → IsOperation t
  | .suffixed | .suffixes _ | .arguments .. => True

theorem Parses.castFirst {task : Task} {ts rest : List Token} {t : Tree}
    (h : Parses isType task ts t rest) : task.CastFirst isType ts t := by
  induction h with
  | plain _ _ ih => exact ih
  | conditional => exact fun _ => .conditional _ _ _
  | level _ _ _ ihleft ih => exact fun hcast => ih (ihleft hcast)
  | @leading m _ _ _ _ hop =>
    intro hcast
    cases m <;> first | cases hcast | cases hop
  | cast => exact fun _ => .cast _ _
  | unsigned h =>
    intro hcast
    cases h with
    | word | number => cases hcast
    | group hnone => cases hcast.symm.trans hnone
  | operator _ _ _ _ ih => exact fun _ => ih (.binary _ _ _)
  | noOperator => exact id
  | _ => trivial

/-- **A cast takes the suffixes of what follows it:** an expression that starts with a cast is the cast, or
an operation whose first operand starts with it. -/
theorem Derives.isOperation {ts : List Token} {t : Tree} (h : Derives isType .expression ts t)
    (hcast : startsCast isType ts = true) : IsOperation t :=
  h.parses.castFirst hcast

end CrossShader.Reader.Cast
