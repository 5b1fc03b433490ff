import DocTransfer.Source.Bracket
import Mathlib.Data.List.Basic

/-! # Tokens of a text and their brackets

A token is a contiguous part of the text, and tokens come in the order of their places. Which kinds
and texts they have does not hang on where the text begins, so it can be told part by part. -/

namespace DocTransfer.Source

section

variable {σ : Type} {isGap : Char → Bool} {step : Step σ}

/-! ## One character -/

theorem tokensFrom_succ (s : σ) (fresh : Bool) (pos k : Nat) (c : Char) (cs : List Char) :
    tokensFrom isGap step s fresh pos (k + 1) (c :: cs) =
      tokensFrom isGap step s fresh (pos + 1) k cs := rfl

theorem tokensFrom_gap {c : Char} (hc : isGap c = true) (s : σ) (fresh : Bool) (pos : Nat)
    (cs : List Char) :
    tokensFrom isGap step s fresh pos 0 (c :: cs) =
      tokensFrom isGap step s (fresh || c == '\n') (pos + 1) 0 cs :=
  if_pos hc

/-- At a character that is no gap a token begins, and the lexer goes on behind it. -/
theorem tokensFrom_token (step : Step σ) {c : Char} (hc : isGap c = false) (s : σ) (fresh : Bool)
    (pos : Nat) (cs : List Char) :
    ∃ fresh', tokensFrom isGap step s fresh pos 0 (c :: cs) =
      ⟨(step s (c :: cs)).1, pos, (c :: cs).take (max (step s (c :: cs)).2.1 1), fresh⟩ ::
        tokensFrom isGap step (step s (c :: cs)).2.2 fresh' (pos + 1)
          ((step s (c :: cs)).2.1 - 1) cs :=
  ⟨_, if_neg (Bool.eq_false_iff.mp hc)⟩

/-! ## Places -/

/-- What a token says stands at its place. -/
theorem tokensFrom_located {s : σ} {fresh : Bool} {k : Nat} {before cs : List Char} {t : Token}
    (ht : t ∈ tokensFrom isGap step s fresh before.length k cs) :
    before.length + k ≤ t.start ∧
      ((before ++ cs).drop t.start).take t.text.length = t.text := by
  induction cs generalizing s fresh k before with
  | nil => cases ht
  | cons c cs ih =>
      -- one character further on
      have hnext : ∀ {s fresh k}, t ∈ tokensFrom isGap step s fresh (before.length + 1) k cs →
          before.length + 1 + k ≤ t.start ∧
            ((before ++ c :: cs).drop t.start).take t.text.length = t.text := by
        intro s fresh k hmem
        have hmem' : t ∈ tokensFrom isGap step s fresh (before ++ [c]).length k cs := by
          simpa using hmem
        simpa using ih hmem'
      cases k with
      | succ k =>
          rw [tokensFrom_succ] at ht
          obtain ⟨hstart, htext⟩ := hnext ht
          exact ⟨by omega, htext⟩
      | zero =>
          cases hc : isGap c with
          | true =>
            rw [tokensFrom_gap hc] at ht
            obtain ⟨hstart, htext⟩ := hnext ht
            exact ⟨by omega, htext⟩
          | false =>
            obtain ⟨fresh', htokens⟩ := tokensFrom_token step hc s fresh before.length cs
            rw [htokens] at ht
            rcases List.mem_cons.mp ht with rfl | ht
            · refine ⟨Nat.le_refl _, ?_⟩
              simp
            · obtain ⟨hstart, htext⟩ := hnext ht
              exact ⟨by omega, htext⟩

theorem tokensFrom_ordered (s : σ) (fresh : Bool) (k : Nat) (before cs : List Char) :
    (tokensFrom isGap step s fresh before.length k cs).Pairwise fun t t' => t.stop ≤ t'.start := by
  induction cs generalizing s fresh k before with
  | nil => exact .nil
  | cons c cs ih =>
      have hnext : ∀ s fresh k, (tokensFrom isGap step s fresh (before.length + 1) k cs).Pairwise
          fun t t' => t.stop ≤ t'.start := by
        intro s fresh k
        simpa using ih s fresh k (before ++ [c])
      cases k with
      | succ k => exact hnext s fresh k
      | zero =>
          cases hc : isGap c with
          | true =>
            rw [tokensFrom_gap hc]
            exact hnext _ _ _
          | false =>
            obtain ⟨fresh', htokens⟩ := tokensFrom_token step hc s fresh before.length cs
            rw [htokens]
            refine List.pairwise_cons.mpr ⟨?_, hnext _ _ _⟩
            intro t' ht'
            have hlength : before.length + 1 = (before ++ [c]).length := by simp
            rw [hlength] at ht'
            have hlater := (tokensFrom_located ht').1
            simp only [List.length_append, List.length_singleton] at hlater
            simp only [Token.stop, List.length_take]
            omega

theorem text_of_mem_tokens {step : List Char → TokenKind × Nat} {source : List Char} {t : Token}
    (ht : t ∈ tokens isGap step source) :
    (source.drop t.start).take t.text.length = t.text := by
  have hfirst : t ∈ tokensFrom isGap _ () true ([] : List Char).length 0 source := ht
  exact (tokensFrom_located hfirst).2

theorem tokens_ordered (isGap : Char → Bool) (step : List Char → TokenKind × Nat)
    (source : List Char) :
    (tokens isGap step source).Pairwise fun t t' => t.stop ≤ t'.start :=
  tokensFrom_ordered () true 0 [] source

/-! ## Kinds and texts -/

/-- What a token is and says, wherever it stands. -/
def Token.lexeme (t : Token) : TokenKind × List Char :=
  (t.kind, t.text)

theorem map_lexeme_tokensFrom (s : σ) (fresh fresh' : Bool) (pos pos' k : Nat) (cs : List Char) :
    (tokensFrom isGap step s fresh pos k cs).map Token.lexeme =
      (tokensFrom isGap step s fresh' pos' k cs).map Token.lexeme := by
  induction cs generalizing s fresh fresh' pos pos' k with
  | nil => rfl
  | cons c cs ih =>
      cases k with
      | succ k => exact ih s fresh fresh' (pos + 1) (pos' + 1) k
      | zero =>
          cases hc : isGap c with
          | true =>
            rw [tokensFrom_gap hc, tokensFrom_gap hc]
            exact ih _ _ _ _ _ _
          | false =>
            obtain ⟨next, htokens⟩ := tokensFrom_token step hc s fresh pos cs
            obtain ⟨next', htokens'⟩ := tokensFrom_token step hc s fresh' pos' cs
            rw [htokens, htokens', List.map_cons, List.map_cons]
            exact congrArg₂ List.cons rfl (ih _ _ _ _ _ _)

theorem map_lexeme_tokensFrom_drop (s : σ) (fresh : Bool) (pos k : Nat) (cs : List Char) :
    (tokensFrom isGap step s fresh pos k cs).map Token.lexeme =
      (tokensFrom isGap step s fresh pos 0 (cs.drop k)).map Token.lexeme := by
  induction cs generalizing pos k with
  | nil =>
      rw [List.drop_nil]
      rfl
  | cons c cs ih =>
      cases k with
      | zero => rfl
      | succ k =>
          rw [tokensFrom_succ, ih, List.drop_succ_cons]
          exact map_lexeme_tokensFrom s fresh fresh (pos + 1) pos 0 _

end

section

variable (isGap : Char → Bool) (step : List Char → TokenKind × Nat)

/-- The kinds and texts of the tokens of a text. -/
def lexemes (cs : List Char) : List (TokenKind × List Char) :=
  (tokens isGap step cs).map Token.lexeme

variable {isGap step}

theorem lexemes_append_gap {gap : List Char} (hgap : ∀ c ∈ gap, isGap c = true) (cs : List Char) :
    lexemes isGap step (gap ++ cs) = lexemes isGap step cs := by
  induction gap with
  | nil => rfl
  | cons c gap ih =>
      obtain ⟨hc, hgap⟩ := List.forall_mem_cons.mp hgap
      rw [← ih hgap, List.cons_append, lexemes, tokens, tokensFrom_gap hc]
      exact map_lexeme_tokensFrom _ _ _ _ _ _ _

theorem lexemes_append_token {kind : TokenKind} {c : Char} {text rest : List Char}
    (hc : isGap c = false) (hstep : step (c :: (text ++ rest)) = (kind, text.length + 1)) :
    lexemes isGap step (c :: (text ++ rest)) = (kind, c :: text) :: lexemes isGap step rest := by
  obtain ⟨fresh, htokens⟩ := tokensFrom_token (fun _ cs => ((step cs).1, (step cs).2, ())) hc ()
    true 0 (text ++ rest)
  rw [lexemes, tokens, htokens]
  simp only [hstep]
  rw [List.map_cons, map_lexeme_tokensFrom_drop]
  refine congrArg₂ List.cons ?_ ?_
  · simp [Token.lexeme]
  · simp only [Nat.add_sub_cancel, List.drop_left]
    exact map_lexeme_tokensFrom _ _ _ _ _ _ _

end

/-! ## Brackets -/

/-- A token that is no bracket. -/
def Token.IsPlain (t : Token) : Prop :=
  closer? t = none ∧ t.isOneOf [")", "]", "\x7d"] = false

theorem gatherFrom_append_of_plain {ts : List Token} (hts : ∀ t ∈ ts, t.IsPlain)
    (level : List Piece) (frames : List Frame) (rest : List Token) :
    gatherFrom level frames (ts ++ rest) =
      gatherFrom ((ts.map Piece.leaf).reverse ++ level) frames rest := by
  induction ts generalizing level with
  | nil => rfl
  | cons t ts ih =>
      obtain ⟨⟨hopens, hcloses⟩, hts⟩ := List.forall_mem_cons.mp hts
      rw [List.cons_append, gatherFrom, if_neg (by simp [hopens]), if_neg (by simp [hcloses]),
        ih hts]
      simp

theorem Token.is_eq_false {t : Token} {a b : String} (h : t.is a = true) (hab : a ≠ b) :
    t.is b = false := by
  simp only [Token.is, Bool.and_eq_true, beq_iff_eq] at h
  have hne : t.text ≠ b.toList := by
    intro heq
    exact hab (String.toList_injective (h.2.symm.trans heq))
  simp [Token.is, hne]

theorem Token.isOneOf_eq_false {t : Token} {names names' : List String}
    (h : t.isOneOf names = true) (hapart : ∀ s ∈ names, s ∉ names') : t.isOneOf names' = false := by
  obtain ⟨s, hs, his⟩ := List.any_eq_true.mp h
  rw [Token.isOneOf, List.any_eq_false]
  intro s' hs'
  have hne : s ≠ s' := fun heq => hapart s hs (heq ▸ hs')
  simp [Token.is_eq_false his hne]

theorem Piece.is_of_ne {p : Piece} {a b : String} (h : p.is a = true) (hab : a ≠ b) :
    p.is b = false := by
  cases p with
  | group => rfl
  | leaf t => exact Token.is_eq_false h hab

theorem Piece.is_eq_false {p : Piece} {names : List String} (h : p.isOneOf names = false)
    {s : String} (hs : s ∈ names) : p.is s = false := by
  cases p with
  | group => rfl
  | leaf t =>
      have hnone := List.any_eq_false.mp (show t.isOneOf names = false from h) s hs
      simpa [Piece.is] using hnone

theorem Piece.isOneOf_append (p : Piece) (names names' : List String) :
    p.isOneOf (names ++ names') = (p.isOneOf names || p.isOneOf names') := by
  cases p with
  | group => rfl
  | leaf t => exact List.any_append

/-- Tokens, an empty pair of braces and more tokens. -/
theorem gather_empty_braces {ts after : List Token} {o c : Token} (hts : ∀ t ∈ ts, t.IsPlain)
    (ho : o.is "\x7b" = true) (hc : c.is "\x7d" = true) (hafter : ∀ t ∈ after, t.IsPlain) :
    gather (ts ++ o :: c :: after) = ts.map .leaf ++ .group o [] c :: after.map .leaf := by
  have hopens : closer? o = some "\x7d" := by
    simp [closer?, ho, Token.is_eq_false ho (b := "(") (by decide),
      Token.is_eq_false ho (b := "[") (by decide)]
  have hcloses : closer? c = none := by
    simp [closer?, Token.is_eq_false hc (b := "(") (by decide),
      Token.is_eq_false hc (b := "[") (by decide), Token.is_eq_false hc (b := "\x7b") (by decide)]
  rw [gather, gatherFrom_append_of_plain hts, gatherFrom, if_pos (by simp [hopens]), gatherFrom,
    if_neg (by simp [hcloses]), if_pos (by simp [Token.isOneOf, hc]), closeWith?,
    if_pos (by simp [hopens, hc])]
  have hrest := gatherFrom_append_of_plain hafter
    (.group o [] c :: (ts.map Piece.leaf).reverse) [] []
  simp only [List.append_nil, List.reverse_nil] at hrest ⊢
  rw [hrest, gatherFrom, unwind]
  simp

end DocTransfer.Source
