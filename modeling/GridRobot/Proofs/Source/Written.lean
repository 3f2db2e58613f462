import GridRobot.Proofs.Text.Numeral
import GridRobot.Source.Lexer
import Mathlib.Data.List.Infix

/-!
# Tokens with gaps between them

A program text is a row of tokens with gaps between them. Cutting what is written in this way leaves
the gaps out, and gives back each token with the place at which it stands.

## Main definitions

* `placeAfter` is the place after some characters, by counting.
* `Gap` is a row of blanks and comments, `Lexeme.Proper` says what is a lexeme at all, and
  `Lexeme.EndsBefore` that a lexeme is as long as possible.
* `Written` says that some characters are tokens with gaps between them.

## Main statements

* `Gap.cut`: a gap is left out.
* `Lexeme.Proper.cut`: a lexeme that is as long as possible is cut off.
* `Written.cut`: what is written as tokens is cut into these tokens.
-/

namespace GridRobot.Source

/-! ### Places -/

/-- The place after some characters of a text: the lines are counted by the line ends, the columns by
the characters after the last of these. -/
def placeAfter (before : List Char) : Position :=
  ⟨before.count '\n' + 1, (before.reverse.takeWhile (· ≠ '\n')).length + 1⟩

theorem after_eq_placeAfter (cs : List Char) : Position.start.after cs = placeAfter cs := by
  induction cs using List.reverseRecOn with
  | nil => rfl
  | append_singleton cs c ih =>
    rw [Position.after_append, ih]
    by_cases hc : c = '\n'
    · simp [placeAfter, Position.after, Position.next, hc]
    · simp [placeAfter, Position.after, Position.next, hc]

theorem after_placeAfter (before cs : List Char) :
    (placeAfter before).after cs = placeAfter (before ++ cs) := by
  rw [← after_eq_placeAfter, ← after_eq_placeAfter, Position.after_append]

/-! ### Gaps -/

/-- Blanks between tokens. -/
def blanks : List Char :=
  [' ', '\t', '\r', '\x0c', '\n']

/-- The characters are a gap before the rest of a text: a row of blanks, of comments up to the end of
their line, and of comments up to the first closing mark. -/
inductive Gap : List Char → List Char → Prop where
  | nil {rest : List Char} : Gap [] rest
  | blank {c : Char} {g rest : List Char} (hc : c ∈ blanks) (hg : Gap g rest) : Gap (c :: g) rest
  | line {inside g rest : List Char} (hinside : '\n' ∉ inside)
      (hend : ∀ c ∈ (g ++ rest).head?, c = '\n') (hg : Gap g rest) :
      Gap ('/' :: '/' :: inside ++ g) rest
  | block {inside g rest : List Char} (hfirst : ¬ ['*', '/'] <:+: inside ++ ['*'])
      (hg : Gap g rest) : Gap ('/' :: '*' :: inside ++ ['*', '/'] ++ g) rest

/-! ### Lexemes -/

/-- What can stand in a text as a lexeme: a word is an identifier and no keyword, and a number a row
of digits. -/
def Lexeme.Proper : Lexeme → Prop
  | .word name => (∃ c cs, name.toList = c :: cs ∧ isWordStart c ∧ ∀ d ∈ cs, isWordPart d) ∧
      ∀ k : Keyword, k.text ≠ name
  | .number digits => digits.toList ≠ [] ∧ ∀ d ∈ digits.toList, Text.isDigit d
  | .keyword _ => True
  | .symbol _ => True

/-- The lexeme does not go on with the first character of the rest. -/
def Lexeme.EndsBefore (rest : List Char) : Lexeme → Prop
  | .word _ => ∀ c ∈ rest.head?, isWordPart c = false
  | .keyword _ => ∀ c ∈ rest.head?, isWordPart c = false
  | .number _ => ∀ c ∈ rest.head?, Text.isDigit c = false
  | .symbol _ => True

/-! ### Texts -/

/-- The characters `cs`, which stand after `before` and are followed by `rest`, are tokens with gaps
between them, and each token stands at its position. -/
inductive Written : List Char → List Token → List Char → List Char → Prop where
  | gap {before g rest : List Char} (hg : Gap g rest) : Written before [] g rest
  | token {before g cs rest : List Char} {t : Token} {ts : List Token}
      (hg : Gap g (t.lexeme.text.toList ++ (cs ++ rest))) (hproper : t.lexeme.Proper)
      (hends : t.lexeme.EndsBefore (cs ++ rest)) (hplace : t.position = placeAfter (before ++ g))
      (h : Written (before ++ g ++ t.lexeme.text.toList) ts cs rest) :
      Written before (t :: ts) (g ++ t.lexeme.text.toList ++ cs) rest

/-! ### Comments -/

theorem prefix_pair_iff {a b c : Char} {cs : List Char} :
    [a, b] <+: c :: cs ↔ c = a ∧ cs.head? = some b := by
  cases cs <;> simp [List.cons_prefix_cons, eq_comm]

/-- A comment is split at its first closing mark. -/
theorem splitComment_append {inside after : List Char} (h : ¬ ['*', '/'] <:+: inside ++ ['*']) :
    splitComment (inside ++ ['*', '/'] ++ after) = some (inside ++ ['*', '/'], after) := by
  induction inside with
  | nil => rfl
  | cons c inside ih =>
    rw [List.cons_append, List.infix_cons_iff, not_or, prefix_pair_iff] at h
    rw [List.cons_append, List.cons_append, splitComment, ih h.2]
    · rfl
    · rintro rest rfl hrest
      refine h.1 ⟨rfl, ?_⟩
      cases inside with
      | nil => cases hrest
      | cons d inside =>
        cases hrest
        rfl

theorem splitComment_eq_some {cs inside after : List Char}
    (h : splitComment cs = some (inside, after)) :
    ∃ body, inside = body ++ ['*', '/'] ∧ ¬ ['*', '/'] <:+: body ++ ['*'] := by
  fun_induction splitComment cs generalizing inside after with
  | case1 => cases h
  | case2 rest =>
    cases h
    exact ⟨[], rfl, by decide⟩
  | case3 c rest hne ih =>
    obtain ⟨⟨i, a⟩, hs, he⟩ := Option.map_eq_some_iff.1 h
    cases he
    obtain ⟨body, rfl, hbody⟩ := ih hs
    refine ⟨c :: body, rfl, ?_⟩
    rw [List.cons_append, List.infix_cons_iff, not_or, prefix_pair_iff]
    refine ⟨?_, hbody⟩
    rintro ⟨rfl, hhead⟩
    have hrest := append_of_splitComment hs
    cases body with
    | nil => cases hhead
    | cons d body =>
      cases hhead
      exact hne _ rfl hrest.symm

theorem splitComment_eq_none {cs : List Char} :
    splitComment cs = none ↔ ¬ ['*', '/'] <:+: cs := by
  fun_induction splitComment cs with
  | case1 => simp
  | case2 rest => simp [List.infix_cons_iff]
  | case3 c rest hne ih =>
    rw [List.infix_cons_iff, not_or, Option.map_eq_none_iff, ih, prefix_pair_iff]
    refine (and_iff_right ?_).symm
    rintro ⟨rfl, hhead⟩
    obtain ⟨tail, rfl⟩ := List.head?_eq_some_iff.1 hhead
    exact hne tail rfl rfl

/-! ### Pieces -/

section Piece

variable {p : Position} {c : Char} {rest : List Char}

/-- Tokens before those of a list. -/
def TokenList.prepend (ts : List Token) (l : TokenList) : TokenList :=
  ⟨ts ++ l.tokens, l.finish⟩

/-- The token that a piece is, if it is one. -/
def Piece.tokens {text : List Char} (piece : Piece text) (p : Position) : List Token :=
  piece.lexeme.toList.map fun l => ⟨l, p⟩

theorem tokenizeFrom_of_ok (piece : Piece (c :: rest)) (h : readPiece c rest = .ok piece) :
    tokenizeFrom p (c :: rest) =
      (tokenizeFrom (p.after piece.taken) piece.rest).map (.prepend (piece.tokens p)) := by
  rw [tokenizeFrom]
  simp only [h]
  cases tokenizeFrom (p.after piece.taken) piece.rest with
  | error e => rfl
  | ok later =>
    cases hl : piece.lexeme <;>
      simp [Piece.tokens, hl, TokenList.prepend, Except.map, bind, Except.bind]

theorem tokenizeFrom_of_error {cause : Cause} (h : readPiece c rest = .error cause) :
    tokenizeFrom p (c :: rest) = .error (.located p cause) := by
  rw [tokenizeFrom]
  simp only [h]

theorem readPiece_eq_readShort (hslash : c ≠ '/') (hand : c ≠ '&') (hbar : c ≠ '|') :
    readPiece c rest = readShort c rest := by
  unfold readPiece
  split
  · exact absurd rfl hslash
  · exact absurd rfl hslash
  · exact absurd rfl hand
  · exact absurd rfl hbar
  · rfl

theorem tokenizeFrom_span {lexeme : List Char → Option Lexeme} {inClass : Char → Bool}
    {cs : List Char} (hread : readPiece c (cs ++ rest) = .ok (.span lexeme inClass c (cs ++ rest)))
    (hcs : ∀ d ∈ cs, inClass d) (hend : ∀ d ∈ rest.head?, inClass d = false) :
    tokenizeFrom p (c :: cs ++ rest) = (tokenizeFrom (p.after (c :: cs)) rest).map
      (.prepend ((lexeme (c :: cs)).toList.map fun l => ⟨l, p⟩)) := by
  have hstop : rest.takeWhile inClass = [] ∧ rest.dropWhile inClass = rest := by
    cases rest with
    | nil => exact ⟨rfl, rfl⟩
    | cons d rest => simp [hend d rfl]
  have htaken : (cs ++ rest).takeWhile inClass = cs := by
    rw [List.takeWhile_append_of_pos hcs, hstop.1, List.append_nil]
  have hrest : (cs ++ rest).dropWhile inClass = rest := by
    rw [List.dropWhile_append_of_pos hcs, hstop.2]
  rw [List.cons_append, tokenizeFrom_of_ok _ hread]
  simp only [Piece.span, Piece.tokens, htaken, hrest]

theorem readPiece_digit (h : Text.isDigit c = true) :
    readPiece c rest =
      .ok (.span (fun cs => some (.number (String.ofList cs))) Text.isDigit c rest) := by
  rw [readPiece_eq_readShort, readShort, if_pos h]
  all_goals
    rintro rfl
    exact absurd h (by decide)

/-- No script has its digits between the first digits and the end of the letters. -/
theorem isDigit_eq_false (h : 57 < c.toNat ∧ c.toNat < 128) : Text.isDigit c = false := by
  have hgaps : ∀ z ∈ Text.zeroDigits, z + 10 ≤ 58 ∨ 128 ≤ z := by decide
  rw [← Bool.not_eq_true]
  intro hdigit
  obtain ⟨z, hmem, hrange⟩ := Text.exists_zeroDigit hdigit
  have hz := hgaps z hmem
  omega

theorem isDigit_of_isWordStart (h : isWordStart c = true) : Text.isDigit c = false := by
  apply isDigit_eq_false
  rcases Bool.or_eq_true_iff.1 h with hletter | hline
  · have hrange := Text.toNat_of_isAlpha hletter
    omega
  · obtain rfl := beq_iff_eq.1 hline
    decide

theorem readPiece_wordStart (h : isWordStart c = true) :
    readPiece c rest = .ok (.span (fun cs => some (wordLexeme cs)) isWordPart c rest) := by
  rw [readPiece_eq_readShort, readShort, if_neg (by simp [isDigit_of_isWordStart h]), if_pos h]
  all_goals
    rintro rfl
    exact absurd h (by decide)

theorem isSpace_iff : isSpace c = true ↔ c ∈ [' ', '\t', '\r', '\x0c'] := by
  have hfeed : c.toNat = 0xC ↔ c = '\x0c' :=
    ⟨fun h => Char.toNat_inj.1 h, fun h => by rw [h]; rfl⟩
  simp [isSpace, hfeed, or_assoc]

theorem mem_blanks_of_isSpace (h : isSpace c = true) : c ∈ blanks :=
  List.mem_append_left ['\n'] (isSpace_iff.1 h)

theorem isSpace_of_mem_blanks (h : c ∈ blanks) (hend : c ≠ '\n') : isSpace c = true :=
  isSpace_iff.2 (by simpa [blanks, hend] using h)

theorem readPiece_space (h : isSpace c = true) :
    readPiece c rest = .ok (.span (fun _ => none) isSpace c rest) := by
  rw [isSpace_iff] at h
  simp only [List.mem_cons, List.not_mem_nil, or_false] at h
  rcases h with rfl | rfl | rfl | rfl <;> rfl

end Piece

/-! ### What is written is cut -/

section Written

variable {p : Position} {l : Lexeme} {before cs g rest : List Char} {ts : List Token}

@[simp] theorem map_prepend_nil (x : Except CompileError TokenList) :
    x.map (.prepend []) = x := by
  cases x <;> rfl

theorem map_prepend_append (us vs : List Token) (x : Except CompileError TokenList) :
    (x.map (TokenList.prepend vs)).map (TokenList.prepend us) =
      x.map (TokenList.prepend (us ++ vs)) := by
  cases x <;> simp [Except.map, TokenList.prepend]

theorem tokenizeFrom_spaces (cs : List Char) :
    tokenizeFrom p cs = tokenizeFrom (p.after (cs.takeWhile isSpace)) (cs.dropWhile isSpace) := by
  cases cs with
  | nil => rfl
  | cons c rest =>
    by_cases hc : isSpace c
    · rw [tokenizeFrom_of_ok _ (readPiece_space hc)]
      simp [Piece.tokens, Piece.span, hc]
    · simp [hc]

/-- Blanks are left out, each by itself as well as many at once. -/
theorem tokenizeFrom_blank {c : Char} (hc : c ∈ blanks) :
    tokenizeFrom p (c :: rest) = tokenizeFrom (p.next c) rest := by
  by_cases hend : c = '\n'
  · subst hend
    rw [tokenizeFrom_of_ok (.one none '\n' rest) rfl]
    simp [Piece.tokens, Piece.one, Position.after]
  · rw [tokenizeFrom_of_ok _ (readPiece_space (isSpace_of_mem_blanks hc hend)),
      tokenizeFrom_spaces rest]
    simp [Piece.tokens, Piece.span, Position.after]

theorem readPiece_comment {inside after : List Char} (h : splitComment cs = some (inside, after)) :
    ∃ piece : Piece ('/' :: '*' :: cs), readPiece '/' ('*' :: cs) = .ok piece ∧
      piece.lexeme = none ∧ piece.taken = '/' :: '*' :: inside ∧ piece.rest = after := by
  simp only [readPiece]
  split
  · rename_i i a hsplit
    rw [hsplit] at h
    cases h
    exact ⟨_, rfl, rfl, rfl, rfl⟩
  · rename_i hsplit
    rw [hsplit] at h
    cases h

/-- A gap is left out. -/
theorem Gap.cut (hg : Gap g rest) :
    tokenizeFrom p (g ++ rest) = tokenizeFrom (p.after g) rest := by
  induction hg generalizing p with
  | nil => rfl
  | blank hc hg ih =>
    rw [List.cons_append, tokenizeFrom_blank hc, ih]
    rfl
  | @line inside g rest hinside hend hg ih =>
    have hclass : ∀ d ∈ '/' :: inside, decide (d ≠ '\n') = true := by
      rintro d (_ | ⟨_, hd⟩)
      · decide
      · exact decide_eq_true fun hline => hinside (hline ▸ hd)
    have hstop : ∀ d ∈ (g ++ rest).head?, decide (d ≠ '\n') = false := fun d hd =>
      decide_eq_false (not_not.2 (hend d hd))
    have hread : readPiece '/' ('/' :: inside ++ (g ++ rest)) =
        .ok (.span (fun _ => none) (· ≠ '\n') '/' ('/' :: inside ++ (g ++ rest))) := rfl
    rw [List.append_assoc, tokenizeFrom_span hread hclass hstop, Option.toList_none, List.map_nil,
      map_prepend_nil, ih, ← Position.after_append]
  | @block inside g rest hfirst hg ih =>
    have hsplit : splitComment (inside ++ ['*', '/'] ++ (g ++ rest)) =
        some (inside ++ ['*', '/'], g ++ rest) := splitComment_append hfirst
    obtain ⟨piece, hpiece, hlexeme, htaken, hrest⟩ := readPiece_comment hsplit
    have hcut := tokenizeFrom_of_ok (p := p) _ hpiece
    rw [Piece.tokens, hlexeme, htaken, hrest, Option.toList_none, List.map_nil, map_prepend_nil,
      ih, ← Position.after_append] at hcut
    rw [← List.append_assoc] at hcut
    simpa only [List.cons_append, List.append_assoc] using hcut

theorem exists_wordStart (k : Keyword) : ∃ c cs, k.text.toList = c :: cs ∧ isWordStart c = true ∧
    (∀ d ∈ cs, isWordPart d = true) ∧ wordLexeme (c :: cs) = .keyword k := by
  cases k <;> exact ⟨_, _, rfl, rfl, List.all_eq_true.1 rfl, rfl⟩

/-- A lexeme that is not a symbol is read as a first character with all that follow it in a class. -/
theorem Lexeme.Proper.spanned (hl : l.Proper) : (∃ s, l = .symbol s) ∨
    ∃ (c : Char) (cs : List Char) (lexeme : List Char → Option Lexeme) (inClass : Char → Bool),
      l.text.toList = c :: cs ∧ lexeme (c :: cs) = some l ∧ (∀ d ∈ cs, inClass d = true) ∧
        (∀ rest, readPiece c rest = .ok (.span lexeme inClass c rest)) ∧
        ∀ rest, l.EndsBefore rest → ∀ d ∈ rest.head?, inClass d = false := by
  cases l with
  | word name =>
    obtain ⟨⟨c, cs, hname, hc, hcs⟩, hkeyword⟩ := hl
    have hnone : Keyword.ofText? name = none := by
      simpa [Keyword.ofText?] using fun k _ => hkeyword k
    have hword : wordLexeme (c :: cs) = .word name := by
      rw [wordLexeme, ← hname, String.ofList_toList, hnone]
    exact .inr ⟨c, cs, _, _, hname, congrArg some hword, hcs, fun _ => readPiece_wordStart hc,
      fun _ hends => hends⟩
  | keyword k =>
    obtain ⟨c, cs, hname, hc, hcs, hword⟩ := exists_wordStart k
    exact .inr ⟨c, cs, _, _, hname, congrArg some hword, hcs, fun _ => readPiece_wordStart hc,
      fun _ hends => hends⟩
  | number digits =>
    obtain ⟨hne, hdigits⟩ := hl
    obtain ⟨d, ds, hname⟩ := List.exists_cons_of_ne_nil hne
    rw [hname] at hdigits
    obtain ⟨hd, hds⟩ := List.forall_mem_cons.1 hdigits
    have hnumber : Lexeme.number (String.ofList (d :: ds)) = .number digits := by
      rw [← hname, String.ofList_toList]
    exact .inr ⟨d, ds, _, _, hname, congrArg some hnumber, hds, fun _ => readPiece_digit hd,
      fun _ hends => hends⟩
  | symbol s => exact .inl ⟨s, rfl⟩

theorem tokenizeFrom_symbol (s : Symbol) :
    tokenizeFrom p (s.text.toList ++ rest) =
      (tokenizeFrom (p.after s.text.toList) rest).map (.prepend [⟨.symbol s, p⟩]) := by
  cases s with
  | both => exact tokenizeFrom_of_ok (.two (some (.symbol .both)) '&' '&' rest) rfl
  | either => exact tokenizeFrom_of_ok (.two (some (.symbol .either)) '|' '|' rest) rfl
  | bang => exact tokenizeFrom_of_ok (.one (some (.symbol .bang)) '!' rest) rfl
  | leftParen => exact tokenizeFrom_of_ok (.one (some (.symbol .leftParen)) '(' rest) rfl
  | rightParen => exact tokenizeFrom_of_ok (.one (some (.symbol .rightParen)) ')' rest) rfl
  | leftBrace => exact tokenizeFrom_of_ok (.one (some (.symbol .leftBrace)) '\x7b' rest) rfl
  | rightBrace => exact tokenizeFrom_of_ok (.one (some (.symbol .rightBrace)) '\x7d' rest) rfl
  | semicolon => exact tokenizeFrom_of_ok (.one (some (.symbol .semicolon)) ';' rest) rfl
  | comma => exact tokenizeFrom_of_ok (.one (some (.symbol .comma)) ',' rest) rfl

/-- A lexeme that is as long as possible is cut off. -/
theorem Lexeme.Proper.cut (hl : l.Proper) (hends : l.EndsBefore rest) :
    tokenizeFrom p (l.text.toList ++ rest) =
      (tokenizeFrom (p.after l.text.toList) rest).map (.prepend [⟨l, p⟩]) := by
  rcases hl.spanned with ⟨s, rfl⟩ | ⟨c, cs, lexeme, inClass, htext, hlexeme, hcs, hread, hstop⟩
  · exact tokenizeFrom_symbol s
  · rw [htext, tokenizeFrom_span (hread _) hcs (hstop rest hends), hlexeme]
    rfl

/-- What is written as tokens is cut into these tokens, whatever follows. -/
theorem Written.cut (h : Written before ts cs rest) :
    tokenizeFrom (placeAfter before) (cs ++ rest) =
      (tokenizeFrom (placeAfter (before ++ cs)) rest).map (.prepend ts) := by
  induction h with
  | gap hg => rw [hg.cut, map_prepend_nil, after_placeAfter]
  | token hg hproper hends hplace h ih =>
    simp only [List.append_assoc] at ih ⊢
    rw [hg.cut, after_placeAfter, hproper.cut hends, after_placeAfter, ← hplace,
      List.append_assoc, ih, map_prepend_append]
    rfl

end Written

end GridRobot.Source
