import CrossShader.Lowering.Outline
import CrossShader.Proofs.Flow.Inert

/-!
# Reading lines

What the statement grammar reads in the lines of a statement, whatever their indentation.

* `Shown` — lines as pieces, with one lemma per kind of line.
* `headerParts_forHeader` — the parts of a `for` header are read back.
* `Shows` — lines as a part of the grammar, with one lemma per layout.
-/

set_option autoImplicit false

namespace CrossShader.Flow

open Reader Text

/-! ## Texts as pieces -/

/-- A text that is read as some pieces and ends with the last of them. -/
def Written (text : String) (ps : List Piece) : Prop :=
  scan .start text.toList = some (.start, ps)

theorem Written.append {a b : String} {ps qs : List Piece} (ha : Written a ps) (hb : Written b qs) :
    Written (a ++ b) (ps ++ qs) := by
  rw [Written, String.toList_append]
  exact scan_append ha hb

/-- A character that completes no piece. -/
theorem scan_step {s s' : State} {c : Char} (h : s.next c = some (s', [])) (cs : List Char) :
    scan s (c :: cs) = scan s' cs := by
  simp [scan, h]

theorem scan_blank {cs ds : List Char} (h : cs.all isBlank = true) :
    scan .start (cs ++ ds) = scan .start ds := by
  induction cs with
  | nil => rfl
  | cons c cs ih =>
    rw [List.all_cons, Bool.and_eq_true] at h
    have hnext : State.start.next c = some (.start, []) := if_pos h.1
    rw [List.cons_append, scan_step hnext, ih h.2]

/-- **The text in the parentheses of a head** is read up to the parenthesis that closes them. -/
theorem scan_parens {cs : List Char} {depth depth' : Nat} (h : nest depth cs = some depth')
    (k : Keyword) (chars : List Char) :
    scan (.parens k depth chars) cs = some (.parens k depth' (chars ++ cs), []) := by
  induction cs generalizing depth chars with
  | nil =>
    cases h
    simp [scan]
  | cons c cs ih =>
    have hrest : ∀ d, nest d cs = some depth' →
        (State.parens k depth chars).next c = some (.parens k d (chars ++ [c]), []) →
        scan (.parens k depth chars) (c :: cs) = some (.parens k depth' (chars ++ c :: cs), []) := by
      intro d hd hnext
      rw [scan_step hnext, ih hd, List.append_assoc]
      rfl
    obtain ⟨rfl, hcs⟩ | ⟨rfl, outer, rfl, hcs⟩ | ⟨hopen, hclose, -, hcs⟩ := nest_cons h
    · exact hrest (depth + 1) hcs rfl
    · exact hrest outer hcs rfl
    · exact hrest depth hcs ((if_neg hopen).trans (if_neg hclose))

/-- A text that may stand in the parentheses of a head. -/
def Enclosed (cs : List Char) : Prop :=
  ∀ k chars, scan (.parens k 0 chars) cs = some (.parens k 0 (chars ++ cs), [])

theorem Enclosed.append {cs ds : List Char} (hcs : Enclosed cs) (hds : Enclosed ds) :
    Enclosed (cs ++ ds) := by
  intro k chars
  rw [← List.append_assoc]
  exact scan_append (hcs k chars) (hds k (chars ++ cs))

theorem Balanced.enclosed {text : String} (h : Balanced text) : Enclosed text.toList :=
  fun k chars => scan_parens (h 0) k chars

/-- The word of a head. -/
def Keyword.word : Keyword → String
  | .ifWord => "if"
  | .forWord => "for"
  | .whileWord => "while"
  | .switchWord => "switch"

/-- **A head:** a keyword and its text in parentheses. -/
theorem written_head (k : Keyword) {text : String} (h : Enclosed text.toList) :
    Written (k.word ++ " (" ++ text ++ ")") [.head k text] := by
  have hopen : scan .start (k.word ++ " (").toList = some (.parens k 0 [], []) := by
    cases k <;> rfl
  have htext := scan_append hopen (h k [])
  have hclose : scan (.parens k 0 text.toList) [')'] =
      some (.start, [.head k (String.ofList text.toList)]) := rfl
  rw [String.ofList_toList] at hclose
  rw [Written, String.toList_append, String.toList_append]
  exact scan_append htext hclose

/-- A label. -/
theorem written_label {text : String} (h : text.toList.all isNumberChar = true) :
    Written ("case " ++ text ++ ":") [.label (some text)] := by
  have hscan : ∀ cs chars : List Char, cs.all isNumberChar = true →
      scan (.label chars) cs = some (.label (chars ++ cs), []) := by
    intro cs
    induction cs with
    | nil =>
      intro chars _
      simp [scan]
    | cons c cs ih =>
      intro chars hcs
      rw [List.all_cons, Bool.and_eq_true] at hcs
      have hcolon : c ≠ ':' := by
        rintro rfl
        cases hcs.1
      have hblank := isBlank_eq_false_of_isNumberChar hcs.1
      have hnext : (State.label chars).next c = some (.label (chars ++ [c]), []) := by
        simp [State.next, State.inLabel, hcolon, hblank]
      rw [scan_step hnext, ih _ hcs.2, List.append_assoc]
      rfl
  -- the text starts behind the keyword and ends at the colon
  have hopen : scan .start "case ".toList = some (.label [], []) := rfl
  have htext := scan_append hopen (hscan text.toList [] h)
  have hclose : scan (.label text.toList) [':'] =
      some (.start, [.label (some (String.ofList text.toList))]) := rfl
  rw [String.ofList_toList] at hclose
  rw [Written, String.toList_append, String.toList_append]
  exact scan_append htext hclose

/-- The characters of a statement without control flow. -/
theorem scan_text {cs : List Char} (hcs : ∀ c ∈ cs, c ≠ ';' ∧ c ≠ '\x7b' ∧ c ≠ '\x7d')
    (chars : List Char) :
    scan (.text chars) (cs ++ [';']) = some (.start, [.statement (String.ofList (chars ++ cs))]) := by
  induction cs generalizing chars with
  | nil => simp [scan, State.next, State.inText]
  | cons c cs ih =>
    obtain ⟨⟨hsemicolon, hopen, hclose⟩, hcs⟩ := List.forall_mem_cons.1 hcs
    have hnext : (State.text chars).next c = some (.text (chars ++ [c]), []) := by
      simp [State.next, State.inText, hsemicolon, hopen, hclose]
    rw [List.cons_append, scan_step hnext, ih hcs, List.append_assoc]
    rfl

/-- The rest of a statement that starts with a word. -/
theorem scan_word {cs letters : List Char} (hcs : ∀ c ∈ cs, c ≠ ';' ∧ c ≠ '\x7b' ∧ c ≠ '\x7d')
    (hword : roles.lookup (String.ofList (letters ++ cs.takeWhile isWordChar)) = none) :
    scan (.word letters) (cs ++ [';']) = some (.start, [.statement (String.ofList (letters ++ cs))]) := by
  induction cs generalizing letters with
  | nil =>
    rw [List.takeWhile_nil, List.append_nil] at hword
    have hnext : (State.word letters).next ';' =
        some (.start, [.statement (String.ofList letters)]) := by
      simp only [State.next, State.afterWord, hword]
      rfl
    simp [scan, hnext]
  | cons c cs ih =>
    obtain ⟨⟨hsemicolon, hopen, hclose⟩, hrest⟩ := List.forall_mem_cons.1 hcs
    cases hc : isWordChar c with
    | true =>
      -- the word goes on
      have hnext : (State.word letters).next c = some (.word (letters ++ [c]), []) := if_pos hc
      rw [List.takeWhile_cons_of_pos hc, List.append_cons] at hword
      rw [List.cons_append, scan_step hnext, ih hrest hword, ← List.append_cons]
    | false =>
      -- the word ends here, and is no keyword
      rw [List.takeWhile_cons_of_neg (by simp [hc]), List.append_nil] at hword
      have hnext : (State.word letters).next c = some (.text (letters ++ [c]), []) := by
        simp [State.next, State.afterWord, State.inText, hc, hword, hsemicolon, hopen, hclose]
      rw [List.cons_append, scan_step hnext, scan_text hrest, ← List.append_cons]

/-- A balanced text has no semicolon and no brace. -/
theorem ne_of_nest {cs : List Char} {depth depth' : Nat} (h : nest depth cs = some depth') :
    ∀ c ∈ cs, c ≠ ';' ∧ c ≠ '\x7b' ∧ c ≠ '\x7d' := by
  induction cs generalizing depth with
  | nil => nofun
  | cons c cs ih =>
    refine List.forall_mem_cons.2 ?_
    obtain ⟨rfl, hcs⟩ | ⟨rfl, outer, -, hcs⟩ | ⟨-, -, hother, hcs⟩ := nest_cons h
    · exact ⟨by decide, ih hcs⟩
    · exact ⟨by decide, ih hcs⟩
    · simp only [not_or] at hother
      exact ⟨⟨hother.1, hother.2.1, hother.2.2.1⟩, ih hcs⟩

/-- **A statement without control flow** is one piece. -/
theorem written_statement {text : String} (h : Inert text) : Written (text ++ ";") [.statement text] := by
  obtain ⟨c, cs, htext, hblank⟩ := h.first
  have hchars := ne_of_nest (h.balanced 0)
  rw [htext] at hchars
  obtain ⟨⟨hsemicolon, hopen, hclose⟩, hrest⟩ := List.forall_mem_cons.1 hchars
  have hwhole : String.ofList (c :: cs) = text := by rw [← htext, String.ofList_toList]
  rw [Written, String.toList_append, htext, List.cons_append]
  cases hc : isWordChar c with
  | true =>
    have hnext : State.start.next c = some (.word [c], []) := by
      simp [State.next, State.atStart, hblank, hopen, hclose, hsemicolon, hc]
    -- the leading word of an inert text is no keyword
    have hlookup : roles.lookup (String.ofList ([c] ++ cs.takeWhile isWordChar)) = none := by
      have hleading := h.leading
      rw [leadingWord, htext, List.takeWhile_cons_of_pos hc] at hleading
      refine List.lookup_eq_none_iff.2 fun role hrole => bne_iff_ne.2 fun heq => hleading ?_
      exact List.mem_append_left _ (List.mem_map.2 ⟨role, hrole, heq.symm⟩)
    rw [scan_step hnext]
    exact (scan_word hrest hlookup).trans (by rw [List.singleton_append, hwhole])
  | false =>
    have hnext : State.start.next c = some (.text [c], []) := by
      simp [State.next, State.atStart, hblank, hopen, hclose, hsemicolon, hc]
    rw [scan_step hnext]
    exact (scan_text hrest [c]).trans (by rw [List.singleton_append, hwhole])

theorem Solid.ne_empty {text : String} (h : Solid text) : text ≠ "" := by
  rintro rfl
  obtain ⟨c, cs, hcs, -⟩ := h.first
  cases hcs

/-! ## Headers -/

theorem trimChars_of_ends {cs : List Char} (hfirst : ∃ c ds, cs = c :: ds ∧ isBlank c = false)
    (hlast : ∃ ds c, cs = ds ++ [c] ∧ isBlank c = false) : trimChars cs = cs := by
  obtain ⟨c, ds, hcs, hc⟩ := hfirst
  obtain ⟨es, e, hcs', he⟩ := hlast
  have hdrop : cs.dropWhile isBlank = cs := by
    rw [hcs, List.dropWhile_cons_of_neg (by simp [hc])]
  have hdrop' : cs.reverse.dropWhile isBlank = cs.reverse := by
    rw [hcs', List.reverse_append, List.reverse_singleton, List.singleton_append,
      List.dropWhile_cons_of_neg (by simp [he])]
  rw [trimChars, hdrop, hdrop', List.reverse_reverse]

/-- White space behind a text is removed. -/
theorem trimChars_concat {cs : List Char} (hfirst : ∃ c ds, cs = c :: ds ∧ isBlank c = false)
    (hlast : ∃ ds c, cs = ds ++ [c] ∧ isBlank c = false) {b : Char} (hb : isBlank b = true) :
    trimChars (cs ++ [b]) = cs := by
  have htrim := trimChars_of_ends hfirst hlast
  obtain ⟨c, ds, hcs, hc⟩ := hfirst
  rw [hcs, trimChars, List.dropWhile_cons_of_neg (by simp [hc])] at htrim
  rw [hcs, trimChars, List.cons_append, List.dropWhile_cons_of_neg (by simp [hc]), ← List.cons_append,
    List.reverse_append, List.reverse_singleton, List.singleton_append, List.dropWhile_cons_of_pos hb]
  exact htrim

theorem trimChars_blank {c : Char} (h : isBlank c = true) (cs : List Char) :
    trimChars (c :: cs) = trimChars cs := by
  rw [trimChars, List.dropWhile_cons_of_pos h, trimChars]

theorem Solid.trimChars_eq {text : String} (h : Solid text) : trimChars text.toList = text.toList :=
  trimChars_of_ends h.first h.last

/-- **Commas inside of parentheses do not split.** -/
theorem splitCommas_append {cs ds first : List Char} {rest : List (List Char)} {depth depth' : Nat}
    (h : nest depth cs = some depth') (hds : splitCommas depth' ds = first :: rest) :
    splitCommas depth (cs ++ ds) = (cs ++ first) :: rest := by
  induction cs generalizing depth with
  | nil =>
    cases h
    exact hds
  | cons c cs ih =>
    rw [List.cons_append, splitCommas]
    obtain ⟨rfl, hcs⟩ | ⟨rfl, outer, rfl, hcs⟩ | ⟨hopen, hclose, hother, hcs⟩ := nest_cons h
    · simp [ih hcs]
    · simp [ih hcs]
    · simp only [not_or] at hother
      simp [hopen, hclose, hother, ih hcs]

theorem splitCommas_comma {cs first : List Char} {rest : List (List Char)}
    (h : splitCommas 0 cs = first :: rest) :
    splitCommas 0 (',' :: ' ' :: cs) = [] :: (' ' :: first) :: rest := by
  simp [splitCommas, h]

theorem splitCommas_intercalate {text : String} {texts : List String}
    (h : ∀ t ∈ text :: texts, Solid t) :
    ∃ first rest, splitCommas 0 (String.intercalate ", " (text :: texts)).toList = first :: rest ∧
      (first :: rest).map trimChars = (text :: texts).map String.toList := by
  induction texts generalizing text with
  | nil =>
    have htext := h text List.mem_cons_self
    have hempty : splitCommas 0 [] = [[]] := rfl
    have hsplit := splitCommas_append (htext.balanced 0) hempty
    rw [List.append_nil] at hsplit
    refine ⟨text.toList, [], hsplit, ?_⟩
    simp [htext.trimChars_eq]
  | cons next texts ih =>
    obtain ⟨htext, hothers⟩ := List.forall_mem_cons.1 h
    obtain ⟨first, rest, hrest, htrim⟩ := ih hothers
    -- the comma ends a step, and the blank goes to the next one
    have hsplit := splitCommas_append (htext.balanced 0) (splitCommas_comma hrest)
    rw [List.append_nil] at hsplit
    refine ⟨text.toList, (' ' :: first) :: rest, ?_, ?_⟩
    · rw [String.intercalate_cons_cons, String.toList_append, String.toList_append, List.append_assoc]
      exact hsplit
    · rw [List.map_cons, List.map_cons, trimChars_blank rfl, ← List.map_cons, htrim, htext.trimChars_eq]
      rfl

theorem first_intercalate {text : String} (h : Solid text) (texts : List String) :
    ∃ c cs, (String.intercalate ", " (text :: texts)).toList = c :: cs ∧ isBlank c = false := by
  obtain ⟨c, cs, hcs, hc⟩ := h.first
  cases texts with
  | nil => exact ⟨c, cs, hcs, hc⟩
  | cons next texts =>
    refine ⟨c, cs ++ (", " ++ String.intercalate ", " (next :: texts)).toList, ?_, hc⟩
    rw [String.intercalate_cons_cons, String.append_assoc, String.toList_append, hcs, List.cons_append]

/-- **The steps of a header are read back.** -/
theorem steps_intercalate {texts : List String} (h : ∀ text ∈ texts, Solid text) :
    steps (String.intercalate ", " texts).toList = texts := by
  cases texts with
  | nil => rfl
  | cons text texts =>
    obtain ⟨first, rest, hsplit, htrim⟩ := splitCommas_intercalate h
    obtain ⟨c, cs, hcs, -⟩ := first_intercalate (h text List.mem_cons_self) texts
    rw [steps, if_neg (by rw [hcs]; nofun), hsplit]
    have hmap := congrArg (List.map String.ofList) htrim
    simpa [List.map_map, Function.comp_def] using hmap

/-- An optional part of a header. -/
def Slot (part : Option String) : Prop := ∀ text ∈ part, Solid text

theorem Slot.part?_eq {part : Option String} (h : Slot part) :
    part? (trimChars (part.getD "").toList) = part := by
  cases part with
  | none => rfl
  | some text =>
    have htext := h text rfl
    obtain ⟨c, cs, hcs, -⟩ := htext.first
    rw [Option.getD_some, htext.trimChars_eq, part?, if_neg (by rw [hcs]; nofun), String.ofList_toList]

theorem Slot.balanced {part : Option String} (h : Slot part) : Balanced (part.getD "") := by
  cases part with
  | none => exact balanced_ordinary rfl
  | some text => exact (h text rfl).balanced

theorem Slot.eq_none {part : Option String} (h : Slot part) (hempty : part.getD "" = "") :
    part = none := by
  cases part with
  | none => rfl
  | some text => exact absurd hempty (h text rfl).ne_empty

theorem not_mem_semicolon {text : String} (h : Balanced text) : ';' ∉ text.toList :=
  fun hmem => (ne_of_nest (h 0) ';' hmem).1 rfl

/-- The steps have no semicolon, and no white space behind the last one. -/
theorem last_intercalate {text : String} {texts : List String} (h : ∀ t ∈ text :: texts, Solid t) :
    ∃ ds c, (String.intercalate ", " (text :: texts)).toList = ds ++ [c] ∧ isBlank c = false := by
  induction texts generalizing text with
  | nil => exact (h text List.mem_cons_self).last
  | cons next texts ih =>
    obtain ⟨ds, c, hlast, hc⟩ := ih fun t ht => h t (List.mem_cons_of_mem _ ht)
    refine ⟨(text ++ ", ").toList ++ ds, c, ?_, hc⟩
    rw [String.intercalate_cons_cons, String.toList_append, hlast, List.append_assoc]

/-- Two semicolons make three parts. -/
theorem headerParts_ofList {a b c : List Char} (ha : ';' ∉ a) (hb : ';' ∉ b) (hc : ';' ∉ c) :
    headerParts (String.ofList (a ++ ';' :: (b ++ ';' :: c))) =
      some (part? (trimChars a), part? (trimChars b), steps (trimChars c)) := by
  have hsplit : (a ++ ';' :: (b ++ ';' :: c)).splitOn ';' = [a, b, c] := by
    have hparts : ∀ part ∈ [a, b, c], ';' ∉ part := by
      simp only [List.forall_mem_cons]
      exact ⟨ha, hb, hc, nofun⟩
    have hjoined : [';'].intercalate [a, b, c] = a ++ ';' :: (b ++ ';' :: c) := by
      simp [List.intercalate]
    rw [← hjoined]
    exact List.splitOn_intercalate ';' hparts (List.cons_ne_nil _ _)
  rw [headerParts, String.toList_ofList, hsplit]
  rfl

/-- The first character of a header, which is that of its start or a semicolon. -/
theorem Slot.first {part : Option String} (h : Slot part) (cs : List Char) :
    ∃ c ds, (part.getD "").toList ++ ';' :: cs = c :: ds ∧ isBlank c = false := by
  cases part with
  | none => exact ⟨';', cs, rfl, rfl⟩
  | some text =>
    obtain ⟨c, ds, hds, hc⟩ := (h text rfl).first
    exact ⟨c, ds ++ ';' :: cs, by rw [Option.getD_some, hds, List.cons_append], hc⟩

/-- **The form of a `for` header:** without steps, the blank behind the last semicolon is removed. -/
theorem forHeader_eq {start condition : Option String} {texts : List String}
    (hstart : Slot start) (htexts : ∀ text ∈ texts, Solid text)
    (hsome : ¬(start.getD "" = "" ∧ condition.getD "" = "" ∧ String.intercalate ", " texts = "")) :
    forHeader (start.getD "") (condition.getD "") (String.intercalate ", " texts) =
      String.ofList ((start.getD "").toList ++ ';' :: (' ' :: (condition.getD "").toList ++ ';' ::
        if texts = [] then [] else ' ' :: (String.intercalate ", " texts).toList)) := by
  have hchars : (start.getD "" ++ "; " ++ condition.getD "" ++ "; " ++
      String.intercalate ", " texts).toList = (start.getD "").toList ++ ';' ::
        (' ' :: (condition.getD "").toList ++ ';' :: ' ' :: (String.intercalate ", " texts).toList) := by
    have hmark : "; ".toList = [';', ' '] := rfl
    simp only [String.toList_append, hmark, List.append_assoc, List.cons_append, List.nil_append]
  rw [forHeader, if_neg hsome]
  refine congrArg String.ofList ((congrArg trimChars hchars).trans ?_)
  cases texts with
  | nil =>
    rw [if_pos rfl]
    -- the last blank is at the end of the header, and is removed
    have hsplit : (start.getD "").toList ++ ';' :: (' ' :: (condition.getD "").toList ++ [';', ' ']) =
        (start.getD "").toList ++ ';' :: (' ' :: (condition.getD "").toList ++ [';']) ++ [' '] := by
      simp only [List.append_assoc, List.cons_append, List.nil_append]
    refine (congrArg trimChars hsplit).trans (trimChars_concat (hstart.first _)
      ⟨(start.getD "").toList ++ ';' :: ' ' :: (condition.getD "").toList, ';', ?_, rfl⟩ rfl)
    simp only [List.append_assoc, List.cons_append]
  | cons text texts =>
    obtain ⟨ds, c, hds, hc⟩ := last_intercalate htexts
    rw [if_neg (List.cons_ne_nil _ _)]
    refine trimChars_of_ends (hstart.first _) ⟨(start.getD "").toList ++ ';' ::
      (' ' :: (condition.getD "").toList ++ ';' :: ' ' :: ds), c, ?_, hc⟩
    simp only [hds, List.append_assoc, List.cons_append]

theorem eq_nil_of_intercalate {texts : List String} (h : ∀ text ∈ texts, Solid text)
    (hempty : String.intercalate ", " texts = "") : texts = [] := by
  cases texts with
  | nil => rfl
  | cons text texts =>
    obtain ⟨c, cs, hcs, -⟩ := first_intercalate (h text List.mem_cons_self) texts
    rw [hempty] at hcs
    cases hcs

theorem not_mem_semicolon_intercalate {texts : List String} (h : ∀ text ∈ texts, Solid text) :
    ';' ∉ (String.intercalate ", " texts).toList := by
  have hnest := nest_arguments (fun text ht => (h text ht).balanced) 0
  exact fun hmem => (ne_of_nest hnest ';' hmem).1 rfl

/-- **The parts of a `for` header are read back.** -/
theorem headerParts_forHeader {start condition : Option String} {texts : List String}
    (hstart : Slot start) (hcondition : Slot condition) (htexts : ∀ text ∈ texts, Solid text) :
    headerParts (forHeader (start.getD "") (condition.getD "") (String.intercalate ", " texts)) =
      some (start, condition, texts) := by
  by_cases hempty : start.getD "" = "" ∧ condition.getD "" = "" ∧ String.intercalate ", " texts = ""
  · obtain rfl := hstart.eq_none hempty.1
    obtain rfl := hcondition.eq_none hempty.2.1
    obtain rfl := eq_nil_of_intercalate htexts hempty.2.2
    rfl
  · have hblank : isBlank ' ' = true := rfl
    -- the steps lose the blank in front of them
    have hsteps : steps (trimChars
        (if texts = [] then [] else ' ' :: (String.intercalate ", " texts).toList)) = texts := by
      cases texts with
      | nil => rfl
      | cons text texts =>
        rw [if_neg (List.cons_ne_nil _ _), trimChars_blank hblank,
          trimChars_of_ends (first_intercalate (htexts text List.mem_cons_self) texts)
            (last_intercalate htexts)]
        exact steps_intercalate htexts
    have hapart : ∀ {cs : List Char}, ';' ∉ cs → ';' ∉ ' ' :: cs :=
      fun hcs hmem => (List.mem_cons.1 hmem).elim (by decide) hcs
    rw [forHeader_eq hstart htexts hempty, headerParts_ofList, hstart.part?_eq, trimChars_blank hblank,
      hcondition.part?_eq, hsteps]
    · exact not_mem_semicolon hstart.balanced
    · exact hapart (not_mem_semicolon hcondition.balanced)
    · split
      · nofun
      · exact hapart (not_mem_semicolon_intercalate htexts)

theorem enclosed_intercalate {texts : List String} (h : ∀ text ∈ texts, Solid text) :
    Enclosed (String.intercalate ", " texts).toList := by
  induction texts with
  | nil => exact fun k chars => by simp [scan]
  | cons text texts ih =>
    obtain ⟨htext, hothers⟩ := List.forall_mem_cons.1 h
    cases texts with
    | nil => exact htext.balanced.enclosed
    | cons next texts =>
      have hcomma : Enclosed ", ".toList := fun k chars => by simp [scan, State.next, State.inParens]
      rw [String.intercalate_cons_cons, String.toList_append, String.toList_append]
      exact (htext.balanced.enclosed.append hcomma).append (ih hothers)

theorem enclosed_forHeader {start condition : Option String} {texts : List String}
    (hstart : Slot start) (hcondition : Slot condition) (htexts : ∀ text ∈ texts, Solid text) :
    Enclosed (forHeader (start.getD "") (condition.getD "") (String.intercalate ", " texts)).toList := by
  have hempty : Enclosed [] := fun k chars => by simp [scan]
  have hsemicolon : Enclosed [';'] := fun k chars => rfl
  have hblank : Enclosed [' '] := fun k chars => rfl
  by_cases hsome : start.getD "" = "" ∧ condition.getD "" = "" ∧ String.intercalate ", " texts = ""
  · rw [forHeader, if_pos hsome]
    exact hsemicolon.append hsemicolon
  · have hlast : Enclosed (if texts = [] then [] else ' ' :: (String.intercalate ", " texts).toList) := by
      split
      · exact hempty
      · exact hblank.append (enclosed_intercalate htexts)
    rw [forHeader_eq hstart htexts hsome, String.toList_ofList]
    exact hstart.balanced.enclosed.append (hsemicolon.append
      ((hblank.append hcondition.balanced.enclosed).append (hsemicolon.append hlast)))

/-! ## Lines as pieces -/

/-- Lines that are read as some pieces, whatever the indentation. -/
def Shown (lines : List Line) (ps : List Piece) : Prop :=
  ∀ indent, Written (renderLines indent lines) ps

namespace Shown

variable {xs ys : List Line} {ps qs : List Piece} {text : String}

theorem nil : Shown [] [] := fun _ => rfl

theorem append (hxs : Shown xs ps) (hys : Shown ys qs) : Shown (xs ++ ys) (ps ++ qs) := by
  intro indent
  rw [renderLines_append]
  exact (hxs indent).append (hys indent)

/-- Indentation before the first line is not read. -/
theorem written_cons {indent level : Nat} : Written (renderLines indent (⟨level, text⟩ :: xs)) ps ↔
    Written (text ++ ("\n" ++ renderLines indent xs)) ps := by
  have hblank : (pad indent level).toList.all isBlank = true := by
    rw [pad, String.toList_ofList, List.all_eq_true]
    intro c hc
    rw [List.eq_of_mem_replicate hc]
    rfl
  rw [renderLines_cons, Line.render, String.append_assoc, String.append_assoc, Written, Written,
    String.toList_append, scan_blank hblank]

/-- A line that ends with a piece, or whose newline does. -/
theorem ended (level : Nat) (h : Written (text ++ "\n") ps) : Shown [⟨level, text⟩] ps := by
  intro indent
  rw [written_cons, renderLines_nil, String.append_empty]
  exact h

theorem line (level : Nat) (h : Written text ps) : Shown [⟨level, text⟩] ps := by
  have hnewline : Written "\n" [] := rfl
  have hended := h.append hnewline
  rw [List.append_nil] at hended
  exact ended level hended

/-- The word `else` before the first line of a statement. -/
theorem elseBefore {level : Nat} {rest : List Line} (h : Shown (⟨level, text⟩ :: rest) ps) :
    Shown (⟨level, "else " ++ text⟩ :: rest) (.elseWord :: ps) := by
  intro indent
  have helse : Written "else " [.elseWord] := rfl
  have hwhole := helse.append (written_cons.1 (h indent))
  rw [written_cons, String.append_assoc]
  exact hwhole

theorem braced (level : Nat) (h : Shown xs ps) : Shown (Text.braced level xs) (.openBrace :: (ps ++ [.closeBrace])) := by
  have hopen : Shown [⟨level, "\x7b"⟩] [.openBrace] := line level rfl
  have hclose : Shown [⟨level, "\x7d"⟩] [.closeBrace] := line level rfl
  exact hopen.append (h.append hclose)

/-- The line of a head. -/
theorem head (level : Nat) (k : Keyword) (h : Enclosed text.toList) :
    Shown [⟨level, k.word ++ " (" ++ text ++ ")"⟩] [.head k text] :=
  line level (written_head k h)

end Shown

/-! ## Lines as statements -/

theorem ofText_ne_ifElse (text condition : String) (as rs : List Flow) :
    ofText text ≠ .ifElse condition as rs := by
  unfold ofText
  split
  · nofun
  split
  · nofun
  split <;> nofun

theorem Derives.ifElse_head {ps : List Piece} {part : Part} {condition : String} {as rs : List Flow}
    (h : Derives ps part) (hpart : part = .statement (.ifElse condition as rs)) :
    ∃ qs, ps = .head .ifWord condition :: qs := by
  cases h with
  | @simple text _ => exact absurd (Part.statement.inj hpart) (ofText_ne_ifElse text condition as rs)
  | ifOnly | ifElse | elseIf =>
    cases hpart
    exact ⟨_, rfl⟩
  | done | next | ret | retNone | block | forLoop | whileLoop | doWhile | switch | noGroup | group =>
    cases hpart

/-- A case in front of others: without a body of its own, it shares that of the first of them. -/
def Group.join (labels : List (Option String)) : List Flow → List Group → List Group
  | [], .mk others fs :: gs => .mk (labels ++ others) fs :: gs
  | fs, gs => .mk labels fs :: gs

theorem Derives.join {labels : List (Option String)} {ps qs : List Piece} {fs : List Flow}
    {gs : List Group} (hlabels : labels ≠ []) (hfs : Derives ps (.body fs)) (hgs : Derives qs (.groups gs)) :
    Derives (labels.map .label ++ (ps ++ qs)) (.groups (Group.join labels fs gs)) := by
  cases hgs with
  | noGroup =>
    have hjoin : Group.join labels fs [] = [.mk labels fs] := by cases fs <;> rfl
    rw [hjoin]
    exact .group hlabels hfs .noGroup fun _ => rfl
  | @group others ps' qs' fs' gs' hothers hfs' hgs' hlast =>
    cases hfs with
    | done =>
      have hne : labels ++ others ≠ [] := List.append_ne_nil_of_left_ne_nil hlabels _
      have hderives := Derives.group hne hfs' hgs' hlast
      rw [List.map_append, List.append_assoc] at hderives
      exact hderives
    | next hf hrest => exact .group hlabels (.next hf hrest) (.group hothers hfs' hgs' hlast) nofun

/-- Lines that are read as a part of the grammar. -/
def Shows (lines : List Line) (part : Part) : Prop := ∃ ps, Shown lines ps ∧ Derives ps part

/-- The lines behind the first branch of an `if`: with any condition and first branch before them, they
are read as an `if` with these statements as its other branch. -/
def ShowsElse (lines : List Line) (reject : List Flow) : Prop :=
  ∃ ps, Shown lines ps ∧ ∀ condition qs accept, Derives qs (.body accept) →
    Derives (.head .ifWord condition :: .openBrace :: (qs ++ .closeBrace :: ps))
      (.statement (.ifElse condition accept reject))

namespace Shows

variable {level : Nat} {text condition : String} {body : List Outline} {fs : List Flow}

theorem nil : Shows (Outline.linesAll level []) (.body []) := ⟨[], .nil, .done⟩

theorem next {o : Outline} {f : Flow} (hf : Shows (Outline.lines level o) (.statement f))
    (hfs : Shows (Outline.linesAll level body) (.body fs)) :
    Shows (Outline.linesAll level (o :: body)) (.body (f :: fs)) := by
  obtain ⟨ps, hps, hf⟩ := hf
  obtain ⟨qs, hqs, hfs⟩ := hfs
  exact ⟨ps ++ qs, hps.append hqs, .next hf hfs⟩

theorem simple (h : Inert text) : Shows (Outline.lines level (.simple text)) (.statement (.simple text)) := by
  have hjump : text ≠ "break" ∧ text ≠ "continue" ∧ text ≠ "discard" := by
    refine ⟨?_, ?_, ?_⟩ <;> rintro rfl <;> exact h.leading (by decide)
  have htext : ofText text = .simple text := by
    rw [ofText, if_neg hjump.1, if_neg hjump.2.1, if_neg hjump.2.2]
  have hderives := Derives.simple h.ne_empty
  rw [htext] at hderives
  exact ⟨[.statement text], .line level (written_statement h), hderives⟩

theorem breakLoop : Shows (Outline.lines level .breakLoop) (.statement .breakLoop) := by
  have hne : "break" ≠ "" := by decide
  exact ⟨[.statement "break"], .line level rfl, .simple hne⟩

theorem continueLoop : Shows (Outline.lines level .continueLoop) (.statement .continueLoop) := by
  have hne : "continue" ≠ "" := by decide
  exact ⟨[.statement "continue"], .line level rfl, .simple hne⟩

theorem discard : Shows (Outline.lines level .discard) (.statement .discard) := by
  have hne : "discard" ≠ "" := by decide
  exact ⟨[.statement "discard"], .line level rfl, .simple hne⟩

theorem retNone : Shows (Outline.lines level (.ret none)) (.statement (.ret none)) :=
  ⟨[.returnWord, .statement ""], .line level rfl, .retNone⟩

theorem ret (h : Inert text) : Shows (Outline.lines level (.ret (some text)))
    (.statement (.ret (some text))) := by
  have hword : Written "return " [.returnWord] := rfl
  have hline := hword.append (written_statement h)
  rw [← String.append_assoc] at hline
  exact ⟨[.returnWord, .statement text], .line level hline, .ret h.ne_empty⟩

theorem block (h : Shows (Outline.linesAll (level + 1) body) (.body fs)) :
    Shows (Outline.lines level (.block body)) (.statement (.block fs)) := by
  obtain ⟨ps, hps, hfs⟩ := h
  exact ⟨_, hps.braced level, .block hfs⟩

theorem whileLoop (hcondition : Inert condition)
    (h : Shows (Outline.linesAll (level + 1) body) (.body fs)) :
    Shows (Outline.lines level (.whileLoop condition body)) (.statement (.whileLoop condition fs)) := by
  obtain ⟨ps, hps, hfs⟩ := h
  exact ⟨_, (Shown.head level .whileWord hcondition.balanced.enclosed).append (hps.braced level), .whileLoop hfs⟩

theorem forLoop {start stop : Option String} {texts : List String} (hstart : Slot start)
    (hstop : Slot stop) (htexts : ∀ text ∈ texts, Solid text)
    (h : Shows (Outline.linesAll (level + 1) body) (.body fs)) :
    Shows (Outline.lines level
        (.forLoop (start.getD "") (stop.getD "") (String.intercalate ", " texts) body))
      (.statement (.forLoop start stop texts fs)) := by
  obtain ⟨ps, hps, hfs⟩ := h
  have hhead := Shown.head level .forWord (enclosed_forHeader hstart hstop htexts)
  exact ⟨_, hhead.append (hps.braced level), .forLoop (headerParts_forHeader hstart hstop htexts) hfs⟩

theorem doWhile (hcondition : Inert condition)
    (h : Shows (Outline.linesAll (level + 1) body) (.body fs)) :
    Shows (Outline.lines level (.doWhile body condition)) (.statement (.doWhile fs condition)) := by
  obtain ⟨ps, hps, hfs⟩ := h
  have hdo : Shown [⟨level, "do"⟩] [.doWord] := .ended level rfl
  have hopen : Shown [⟨level, "\x7b"⟩] [.openBrace] := .line level rfl
  have hbrace : Written "\x7d " [.closeBrace] := rfl
  have hsemicolon : Written ";" [.statement ""] := rfl
  have hend : Written ("\x7d while (" ++ condition ++ ");")
      [.closeBrace, .head .whileWord condition, .statement ""] := by
    have hparts := (hbrace.append (written_head .whileWord hcondition.balanced.enclosed)).append hsemicolon
    have htext : "\x7d while (" ++ condition ++ ");" =
        "\x7d " ++ (Keyword.word .whileWord ++ " (" ++ condition ++ ")") ++ ";" := by
      have hhead : "\x7d while (" = "\x7d " ++ Keyword.word .whileWord ++ " (" := rfl
      have hclose : ");" = ")" ++ ";" := rfl
      simp only [hhead, hclose, String.append_assoc]
    rw [htext]
    exact hparts
  have hlines := ((hdo.append hopen).append hps).append (Shown.line level hend)
  rw [List.append_assoc _ ps] at hlines
  exact ⟨_, hlines, .doWhile hfs⟩

theorem ifElse {accept reject : List Outline} {as rs : List Flow} (hcondition : Inert condition)
    (haccept : Shows (Outline.linesAll (level + 1) accept) (.body as))
    (hreject : ShowsElse (Outline.elseLines level reject) rs) :
    Shows (Outline.lines level (.ifElse condition accept reject))
      (.statement (.ifElse condition as rs)) := by
  obtain ⟨qs, hqs, has⟩ := haccept
  obtain ⟨ps, hps, hrs⟩ := hreject
  have hhead := Shown.head level .ifWord hcondition.balanced.enclosed
  have hlines := hhead.append ((hqs.braced level).append hps)
  refine ⟨_, hlines, ?_⟩
  have hderives := hrs condition qs as has
  simpa using hderives

theorem switch {cases : List OutlineCase} {gs : List Group} (hselector : Inert text)
    (h : Shows (OutlineCase.linesAll (level + 1) cases) (.groups gs)) :
    Shows (Outline.lines level (.switch text cases)) (.statement (.switch text gs)) := by
  obtain ⟨ps, hps, hgs⟩ := h
  have hhead := Shown.head level .switchWord hselector.balanced.enclosed
  exact ⟨_, hhead.append (hps.braced level), .switch hgs⟩

theorem noGroup : Shows (OutlineCase.linesAll level []) (.groups []) := ⟨[], .nil, .noGroup⟩

theorem shown_caseLines (level : Nat) {labels : List String}
    (h : ∀ label ∈ labels, label.toList.all isNumberChar = true) (isDefault : Bool) :
    Shown (caseLines level labels isDefault)
      ((labels.map some ++ if isDefault then [none] else []).map .label) := by
  have hdefault : Shown (if isDefault then [⟨level, "default:"⟩] else [])
      ((if isDefault then [none] else []).map .label) := by
    cases isDefault with
    | true => exact .line level rfl
    | false => exact .nil
  rw [caseLines, List.map_append]
  refine Shown.append ?_ hdefault
  clear hdefault
  induction labels with
  | nil => exact .nil
  | cons label labels ih =>
    obtain ⟨hlabel, hlabels⟩ := List.forall_mem_cons.1 h
    exact (Shown.line level (written_label hlabel)).append (ih hlabels)

/-- **A case:** without a body of its own, it shares that of the case behind it. -/
theorem group {labels : List String} {isDefault : Bool} {cases : List OutlineCase} {gs : List Group}
    (hlabels : ∀ label ∈ labels, label.toList.all isNumberChar = true)
    (hsome : labels ≠ [] ∨ isDefault = true)
    (hbody : Shows (Outline.linesAll (level + 1) body) (.body fs))
    (hcases : Shows (OutlineCase.linesAll level cases) (.groups gs)) :
    Shows (OutlineCase.linesAll level (.mk labels isDefault body :: cases))
      (.groups (Group.join (labels.map some ++ if isDefault then [none] else []) fs gs)) := by
  obtain ⟨ps, hps, hfs⟩ := hbody
  obtain ⟨qs, hqs, hgs⟩ := hcases
  have hlines := ((shown_caseLines level hlabels isDefault).append hps).append hqs
  refine ⟨_, hlines, ?_⟩
  rw [List.append_assoc]
  refine .join ?_ hfs hgs
  rcases hsome with hsome | rfl
  · exact List.append_ne_nil_of_left_ne_nil (by simpa using hsome) _
  · exact List.append_ne_nil_of_right_ne_nil _ (List.cons_ne_nil _ _)

end Shows

namespace ShowsElse

theorem nothing (level : Nat) : ShowsElse (Outline.elseLines level []) [] := by
  refine ⟨[], .nil, fun condition qs accept haccept => ?_⟩
  exact .ifOnly haccept

/-- **An `else if`** is an `else` whose branch is that `if`. -/
theorem chain {level : Nat} {condition : String} {accept reject : List Outline} {as rs : List Flow}
    (h : Shows (Outline.lines level (.ifElse condition accept reject))
      (.statement (.ifElse condition as rs))) :
    ShowsElse (Outline.elseLines level [.ifElse condition accept reject]) [.ifElse condition as rs] := by
  obtain ⟨ps, hps, hderives⟩ := h
  obtain ⟨qs, rfl⟩ := hderives.ifElse_head rfl
  refine ⟨_, hps.elseBefore, fun condition' qs' accept' haccept' => ?_⟩
  exact .elseIf haccept' hderives

theorem branch {level : Nat} {o : Outline} {rest : List Outline} {rs : List Flow}
    (hchain : ∀ condition accept reject, o :: rest ≠ [.ifElse condition accept reject])
    (h : Shows (Outline.linesAll (level + 1) (o :: rest)) (.body rs)) :
    ShowsElse (Outline.elseLines level (o :: rest)) rs := by
  obtain ⟨ps, hps, hrs⟩ := h
  have helse : Shown [⟨level, "else"⟩] [.elseWord] := .ended level rfl
  rw [Outline.elseLines_branch hchain]
  exact ⟨_, helse.append (hps.braced level), fun condition qs accept haccept => .ifElse haccept hrs⟩

end ShowsElse

end CrossShader.Flow
