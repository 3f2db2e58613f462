import GridRobot.Proofs.Source.Written
import Mathlib.Data.List.TakeWhile

/-!
# What a text is cut into

Cutting a program text loses nothing: the text is its tokens with gaps between them, and each token
stands where its position says. A text that is not cut has a place after which neither a token nor a
gap stands, and the error is at the first such place.

## Main definitions

* `Piece.Sound` says that a piece is a gap or a lexeme that is as long as possible.
* `Stuck` says that the rest of a text begins with neither a token nor a gap.

## Main statements

* `readPiece_sound`, `readPiece_stuck`: what is taken off a text, and when nothing is.
* `exists_written`: every text is written as tokens, up to its end or up to where it is stuck.
* `tokenize_written`: what a text is cut into, and when and where it is not cut.
-/

namespace GridRobot.Source

/-! ### What is cut is written -/

section Sound

variable {c : Char} {rest : List Char}

/-- The piece is a gap, or a lexeme that is as long as possible. -/
inductive Piece.Sound {text : List Char} (piece : Piece text) : Prop where
  | gap (hnone : piece.lexeme = none) (hg : Gap piece.taken piece.rest)
  | lexeme (l : Lexeme) (hsome : piece.lexeme = some l) (htaken : piece.taken = l.text.toList)
      (hproper : l.Proper) (hends : l.EndsBefore piece.rest)

theorem gap_of_blanks {g : List Char} (h : ∀ c ∈ g, c ∈ blanks) : Gap g rest := by
  induction g with
  | nil => exact .nil
  | cons c g ih =>
    obtain ⟨hc, hg⟩ := List.forall_mem_cons.1 h
    exact .blank hc (ih hg)

theorem head?_dropWhile {inClass : Char → Bool} {cs : List Char} :
    ∀ c ∈ (cs.dropWhile inClass).head?, inClass c = false := by
  intro c hc
  have hstop := List.head?_dropWhile_not inClass cs
  rw [hc] at hstop
  simpa using hstop

theorem span_digits (hc : Text.isDigit c = true) :
    (Piece.span (fun cs => some (.number (String.ofList cs))) Text.isDigit c rest).Sound := by
  refine .lexeme _ rfl String.toList_ofList.symm ⟨?_, ?_⟩ head?_dropWhile
  · simp
  · rw [String.toList_ofList]
    rintro d (_ | ⟨_, hd⟩)
    · exact hc
    · exact List.mem_takeWhile_imp hd

/-- Some characters are a keyword, or else they are a word. -/
theorem wordLexeme_cases (cs : List Char) :
    (∃ k : Keyword, wordLexeme cs = .keyword k ∧ k.text.toList = cs) ∨
      (wordLexeme cs = .word (String.ofList cs) ∧ ∀ k : Keyword, k.text ≠ String.ofList cs) := by
  unfold wordLexeme
  cases hk : Keyword.ofText? (String.ofList cs) with
  | some k =>
    have htext : k.text = String.ofList cs := by simpa using List.find?_some hk
    exact .inl ⟨k, by simp only [hk], by rw [htext, String.toList_ofList]⟩
  | none =>
    refine .inr ⟨by simp only [hk], fun k => ?_⟩
    rw [Keyword.ofText?, List.find?_eq_none] at hk
    simpa using hk k (by cases k <;> decide)

theorem span_word (hc : isWordStart c = true) :
    (Piece.span (fun cs => some (wordLexeme cs)) isWordPart c rest).Sound := by
  have hsome : (Piece.span (fun cs => some (wordLexeme cs)) isWordPart c rest).lexeme =
      some (wordLexeme (c :: rest.takeWhile isWordPart)) := rfl
  rcases wordLexeme_cases (c :: rest.takeWhile isWordPart) with ⟨k, hk, htext⟩ | ⟨hword, hfree⟩
  · rw [hk] at hsome
    exact .lexeme _ hsome htext.symm trivial head?_dropWhile
  · rw [hword] at hsome
    exact .lexeme _ hsome String.toList_ofList.symm
      ⟨⟨c, _, String.toList_ofList, hc, fun _ => List.mem_takeWhile_imp⟩, hfree⟩ head?_dropWhile

theorem text_of_symbol? {s : Symbol} (h : symbol? c = some s) : s.text.toList = [c] := by
  unfold symbol? at h
  split at h <;> cases h <;> rfl

theorem readShort_sound {piece : Piece (c :: rest)} (h : readShort c rest = .ok piece) :
    piece.Sound := by
  unfold readShort at h
  split_ifs at h with hdigit hword hend hspace
  · cases h
    exact span_digits hdigit
  · cases h
    exact span_word hword
  · cases h
    exact .gap rfl (.blank (by simp [hend, blanks]) .nil)
  · cases h
    refine .gap rfl (gap_of_blanks ?_)
    rintro d (_ | ⟨_, hd⟩)
    · exact mem_blanks_of_isSpace hspace
    · exact mem_blanks_of_isSpace (List.mem_takeWhile_imp hd)
  · cases hs : symbol? c with
    | none =>
      rw [hs] at h
      cases h
    | some s =>
      rw [hs] at h
      cases h
      exact .lexeme (.symbol s) rfl (text_of_symbol? hs).symm trivial trivial

theorem readPiece_sound {piece : Piece (c :: rest)} (h : readPiece c rest = .ok piece) :
    piece.Sound := by
  unfold readPiece at h
  split at h
  · rename_i after
    cases h
    have hinside : '\n' ∉ after.takeWhile (· ≠ '\n') := fun hmem => by
      simpa using List.mem_takeWhile_imp hmem
    have hend : ∀ c ∈ ([] ++ after.dropWhile (· ≠ '\n')).head?, c = '\n' := fun c hc => by
      simpa using head?_dropWhile c hc
    exact .gap rfl (by simpa [Piece.span] using Gap.line hinside hend .nil)
  · split at h
    · rename_i after inside beyond hsplit
      cases h
      obtain ⟨body, rfl, hfirst⟩ := splitComment_eq_some hsplit
      have hg : Gap ('/' :: '*' :: body ++ ['*', '/'] ++ []) beyond := .block hfirst .nil
      exact .gap rfl (by simpa using hg)
    · cases h
  · cases h
    exact .lexeme (.symbol .both) rfl rfl trivial trivial
  · cases h
    exact .lexeme (.symbol .either) rfl rfl trivial trivial
  · exact readShort_sound h

/-! ### Where nothing begins -/

/-- The text begins with neither a token nor a gap: with a comment that is never closed, or with a
character with which nothing begins. -/
inductive Stuck : List Char → Cause → Prop where
  | comment {after : List Char} (h : ¬ ['*', '/'] <:+: after) :
      Stuck ('/' :: '*' :: after) .unterminatedComment
  | character {c : Char} {rest : List Char} (hcomment : ¬ ['/', '*'] <+: c :: rest)
      (hlexeme : ∀ l : Lexeme, l.Proper → ¬ l.text.toList <+: c :: rest)
      (hgap : ∀ g after, g ++ after = c :: rest → Gap g after → g = []) :
      Stuck (c :: rest) (.unexpectedCharacter c)

theorem readPiece_of_lexeme {l : Lexeme} (hl : l.Proper) (h : l.text.toList <+: c :: rest) :
    ∃ piece, readPiece c rest = .ok piece := by
  obtain ⟨after, h⟩ := h
  rcases hl.spanned with ⟨s, rfl⟩ | ⟨d, ds, _, _, htext, -, -, hread, -⟩
  · cases s <;> (cases h; exact ⟨_, rfl⟩)
  · rw [htext] at h
    cases h
    exact ⟨_, hread _⟩

theorem readPiece_of_gap {g after : List Char} (hg : Gap g after) (hne : g ≠ [])
    (h : g ++ after = c :: rest) : ∃ piece, readPiece c rest = .ok piece := by
  cases hg with
  | nil => exact absurd rfl hne
  | @blank d g _ hd hg =>
    cases h
    by_cases hend : c = '\n'
    · subst hend
      exact ⟨_, rfl⟩
    · exact ⟨_, readPiece_space (isSpace_of_mem_blanks hd hend)⟩
  | line hinside hend hg =>
    cases h
    exact ⟨_, rfl⟩
  | @block inside g _ hfirst hg =>
    simp only [List.cons_append, List.append_assoc] at h
    cases h
    have hsplit : splitComment (inside ++ ['*', '/'] ++ (g ++ after)) =
        some (inside ++ ['*', '/'], g ++ after) := splitComment_append hfirst
    rw [List.append_assoc] at hsplit
    obtain ⟨piece, hpiece, -⟩ := readPiece_comment hsplit
    exact ⟨piece, hpiece⟩

theorem readShort_error {cause : Cause} (h : readShort c rest = .error cause) :
    cause = .unexpectedCharacter c := by
  unfold readShort at h
  split_ifs at h
  split at h <;> cases h
  rfl

/-- Where nothing is taken off, the text is stuck. -/
theorem readPiece_stuck {cause : Cause} (h : readPiece c rest = .error cause) :
    Stuck (c :: rest) cause := by
  by_cases hcomment : ['/', '*'] <+: c :: rest
  · obtain ⟨rfl, hhead⟩ := prefix_pair_iff.1 hcomment
    obtain ⟨after, rfl⟩ := List.head?_eq_some_iff.1 hhead
    simp only [readPiece] at h
    split at h
    · cases h
    · rename_i hsplit
      cases h
      exact .comment (splitComment_eq_none.1 hsplit)
  · have hcause : cause = .unexpectedCharacter c := by
      unfold readPiece at h
      split at h
      · cases h
      · exact absurd (by simp) hcomment
      · cases h
      · cases h
      · exact readShort_error h
    subst hcause
    refine .character hcomment (fun l hl hprefix => ?_) (fun g after happend hg => ?_)
    · obtain ⟨piece, hpiece⟩ := readPiece_of_lexeme hl hprefix
      rw [hpiece] at h
      cases h
    · by_contra hne
      obtain ⟨piece, hpiece⟩ := readPiece_of_gap hg hne happend
      rw [hpiece] at h
      cases h

theorem Stuck.cut {p : Position} {cs : List Char} {cause : Cause} (h : Stuck cs cause) :
    tokenizeFrom p cs = .error (.located p cause) := by
  cases h with
  | @comment after hopen =>
    refine tokenizeFrom_of_error ?_
    simp only [readPiece]
    split
    · rename_i hsplit
      rw [splitComment_eq_none.2 hopen] at hsplit
      cases hsplit
    · rfl
  | @character c rest hcomment hlexeme hgap =>
    refine tokenizeFrom_of_error ?_
    cases h : readPiece c rest with
    | ok piece =>
      cases readPiece_sound h with
      | gap _ hg => exact absurd (hgap _ _ piece.taken_append_rest hg) piece.taken_ne_nil
      | lexeme l _ htaken hproper _ =>
        refine absurd ⟨piece.rest, ?_⟩ (hlexeme l hproper)
        rw [← htaken, piece.taken_append_rest]
    | error cause =>
      cases readPiece_stuck h with
      | comment _ => exact absurd (by simp) hcomment
      | character _ _ _ => rfl

end Sound

/-! ### Every text -/

section Texts

variable {before cs g rest : List Char} {ts : List Token}

theorem Gap.append {g' : List Char} (hg : Gap g (g' ++ rest)) (hg' : Gap g' rest) :
    Gap (g ++ g') rest := by
  generalize hmid : g' ++ rest = mid at hg
  induction hg with
  | nil => exact hg'
  | blank hc hg ih => exact .blank hc (ih hmid)
  | line hinside hend hg ih =>
    subst hmid
    rw [List.append_assoc]
    exact .line hinside (by rwa [List.append_assoc]) (ih rfl)
  | block hfirst hg ih =>
    rw [List.append_assoc]
    exact .block hfirst (ih hmid)

/-- A gap before what is written. -/
theorem Written.prepend (h : Written (before ++ g) ts cs rest) (hg : Gap g (cs ++ rest)) :
    Written before ts (g ++ cs) rest := by
  cases h with
  | gap hg' => exact .gap (hg.append hg')
  | @token _ g' cs' _ t ts hg' hproper hends hplace h =>
    simp only [List.append_assoc] at hg hplace h ⊢
    have hjoined : Written before (t :: ts) (g ++ g' ++ t.lexeme.text.toList ++ cs') rest :=
      .token (hg.append hg') hproper hends hplace
        (by simpa only [List.append_assoc] using h)
    simpa only [List.append_assoc] using hjoined

/-- Every text is written as tokens up to its end, or up to where it is stuck. -/
theorem exists_written (before text : List Char) :
    ∃ ts cs rest, text = cs ++ rest ∧ Written before ts cs rest ∧
      (rest = [] ∨ ∃ cause, Stuck rest cause) := by
  cases text with
  | nil => exact ⟨[], [], [], rfl, .gap .nil, .inl rfl⟩
  | cons c text =>
    cases hread : readPiece c text with
    | error cause => exact ⟨[], [], _, rfl, .gap .nil, .inr ⟨cause, readPiece_stuck hread⟩⟩
    | ok piece =>
      obtain ⟨ts, cs, rest, hrest, hwritten, hend⟩ :=
        exists_written (before ++ piece.taken) piece.rest
      have htext := piece.taken_append_rest
      cases readPiece_sound hread with
      | gap _ hg =>
        refine ⟨ts, piece.taken ++ cs, rest, ?_, hwritten.prepend (hrest ▸ hg), hend⟩
        rw [List.append_assoc, ← hrest, htext]
      | lexeme l _ htaken hproper hends =>
        refine ⟨⟨l, placeAfter before⟩ :: ts, piece.taken ++ cs, rest, ?_, ?_, hend⟩
        · rw [List.append_assoc, ← hrest, htext]
        · rw [htaken] at hwritten ⊢
          rw [hrest] at hends
          have htoken : Written before (⟨l, placeAfter before⟩ :: ts)
              ([] ++ l.text.toList ++ cs) rest :=
            .token .nil hproper hends (by simp) (by simpa using hwritten)
          exact htoken
termination_by text.length
decreasing_by exact piece.rest_lt

variable {source : String}

theorem Written.cut_text (h : Written [] ts cs rest) (htext : source.toList = cs ++ rest) :
    tokenize source = (tokenizeFrom (placeAfter cs) rest).map (.prepend ts) := by
  have hcut := h.cut
  rw [← htext] at hcut
  exact hcut

theorem Written.cut_whole (h : Written [] ts source.toList []) :
    tokenize source = .ok ⟨ts, placeAfter source.toList⟩ := by
  rw [h.cut_text (List.append_nil _).symm, tokenizeFrom]
  simp [Except.map, TokenList.prepend]

theorem Written.cut_stuck {cause : Cause} (h : Written [] ts cs rest)
    (htext : source.toList = cs ++ rest) (hstuck : Stuck rest cause) :
    tokenize source = .error (.located (placeAfter cs) cause) := by
  rw [h.cut_text htext, hstuck.cut]
  rfl

theorem written_or_stuck (source : String) :
    (∃ ts, Written [] ts source.toList []) ∨
      ∃ ts cs rest cause, source.toList = cs ++ rest ∧ Written [] ts cs rest ∧
        Stuck rest cause := by
  obtain ⟨ts, cs, rest, htext, hwritten, rfl | ⟨cause, hstuck⟩⟩ := exists_written [] source.toList
  · rw [List.append_nil] at htext
    exact .inl ⟨ts, htext ▸ hwritten⟩
  · exact .inr ⟨ts, cs, rest, cause, htext, hwritten, hstuck⟩

/-- A text is cut into some tokens exactly if it is these tokens with gaps between them, each as long
as possible and each at its position; its end then stands at the place after all of it. A text is not
cut exactly if it is so up to where neither a token nor a gap begins; then the syntax is wrong, and
the error is there. -/
theorem tokenize_written (source : String) :
    (∀ l : TokenList, tokenize source = .ok l ↔
      Written [] l.tokens source.toList [] ∧ l.finish = placeAfter source.toList) ∧
    ∀ e : CompileError, tokenize source = .error e ↔
      ∃ ts cs rest cause, source.toList = cs ++ rest ∧ Written [] ts cs rest ∧ Stuck rest cause ∧
        cause.kind = .syntaxError ∧ e = .located (placeAfter cs) cause := by
  refine ⟨fun l => ⟨fun hcut => ?_, ?_⟩, fun e => ⟨fun hcut => ?_, ?_⟩⟩
  · rcases written_or_stuck source with ⟨ts, hwhole⟩ | ⟨ts, cs, rest, cause, htext, hwritten, hstuck⟩
    · rw [hwhole.cut_whole] at hcut
      cases hcut
      exact ⟨hwhole, rfl⟩
    · rw [hwritten.cut_stuck htext hstuck] at hcut
      cases hcut
  · rintro ⟨hwhole, hfinish⟩
    rw [hwhole.cut_whole, ← hfinish]
  · rcases written_or_stuck source with ⟨ts, hwhole⟩ | ⟨ts, cs, rest, cause, htext, hwritten, hstuck⟩
    · rw [hwhole.cut_whole] at hcut
      cases hcut
    · rw [hwritten.cut_stuck htext hstuck] at hcut
      cases hcut
      exact ⟨ts, cs, rest, cause, htext, hwritten, hstuck, by cases hstuck <;> rfl, rfl⟩
  · rintro ⟨ts, cs, rest, cause, htext, hwritten, hstuck, -, rfl⟩
    exact hwritten.cut_stuck htext hstuck

example : tokenize "do /* a\n b */ 12" =
    .ok ⟨[⟨.keyword .doWord, ⟨1, 1⟩⟩, ⟨.number "12", ⟨2, 7⟩⟩], ⟨2, 9⟩⟩ := by
  cbv

end Texts

end GridRobot.Source
