import TokenScan.Proofs.Recognition.Basic

/-!
# What has been seen of a lexeme

A phase remembers something of the characters before it. `Phase.Seen` says what: the language of the
lexeme so far. It is an invariant of the steps (`seen_of_shift`), and when a lexeme ends in a phase,
or with a last character, it puts the lexeme into the language of the category that it gets
(`mem_language_of_last`, `mem_language_of_closing`). So the text that is taken is a lexeme of the
category decided on (`mem_language_verdict`).

Behind a sign, a point is taken *before* the digit that justifies it; so the invariant has to
mention the next unread character. It does so there and at the very start, where the next character
is no blank, and nowhere else.
-/

open scoped Computability

namespace TokenScan

open Grammar

namespace Phase

/-! ### What has been seen -/

/-- **What the lexeme looks like in a phase**, given the next unread character. The latter matters
before the first character, which is no blank, and behind a sign and a point, where it is a digit.
-/
def Seen (lexeme : List Char) (next : Option Char) : Phase → Prop
  | start => lexeme = [] ∧ ∃ c, next = some c ∧ c ∉ blankChars
  | word => lexeme ∈ Grammar.word
  | integer => lexeme ∈ sign * numeral
  | fraction =>
    lexeme ∈ sign * fractional ∨
      (lexeme = ['+', '.'] ∨ lexeme = ['-', '.']) ∧ ∃ d, next = some d ∧ d.isDigit = true
  | point => lexeme = ['.']
  | plus => lexeme = ['+']
  | minus => lexeme = ['-']
  | symbol => ∃ c ∈ symbols, lexeme = [c]

section Growth

variable {w : List Char} {c : Char}

theorem concat_mem_mul {L M N : Language Char} (hw : w ∈ L * M)
    (h : ∀ v ∈ M, v ++ [c] ∈ N) : w ++ [c] ∈ L * N := by
  obtain ⟨a, ha, v, hv, rfl⟩ := Language.mem_mul.1 hw
  rw [List.append_assoc]
  exact Language.append_mem_mul ha (h v hv)

theorem concat_mem_kstar (hw : w ∈ digit∗) (hc : c.isDigit = true) : w ++ [c] ∈ digit∗ := by
  rw [mem_digit_kstar] at hw ⊢
  simpa [or_imp, forall_and] using ⟨hw, hc⟩

theorem concat_mem_numeral (hw : w ∈ numeral) (hc : c.isDigit = true) : w ++ [c] ∈ numeral :=
  concat_mem_mul hw fun _ hv ↦ concat_mem_kstar hv hc

theorem concat_mem_fractional (hw : w ∈ fractional) (hc : c.isDigit = true) :
    w ++ [c] ∈ fractional := by
  rcases (Language.mem_add _ _ _).1 hw with hw | hw
  · exact Or.inl (concat_mem_mul hw fun _ hv ↦
      concat_mem_mul hv fun _ hu ↦ concat_mem_kstar hu hc)
  · exact Or.inr (concat_mem_mul hw fun _ hv ↦ concat_mem_numeral hv hc)

theorem point_mem_fractional (hw : w ∈ numeral) : w ++ ['.'] ∈ fractional :=
  mem_fractional.2 (Or.inl ⟨w, [], hw, Language.nil_mem_kstar _, rfl⟩)

theorem concat_mem_word (hw : w ∈ Grammar.word) (hc : WordChar c) : w ++ [c] ∈ Grammar.word := by
  refine concat_mem_mul hw fun v hv ↦ ?_
  rw [mem_single_kstar] at hv ⊢
  simpa [or_imp, forall_and] using ⟨hv, hc⟩

theorem singleton_mem_numeral (hc : c.isDigit = true) : [c] ∈ numeral :=
  mem_numeral.2 ⟨c, [], rfl, hc, by simp⟩

/-- Any sign may stand before what may follow a sign. -/
theorem signed_mem_mul {L : Language Char} {s : Char} (hs : s = '+' ∨ s = '-') (hw : w ∈ L) :
    s :: w ∈ sign * L := by
  refine Language.append_mem_mul (a := [s]) (mem_sign.2 (Or.inr ?_)) hw
  rcases hs with rfl | rfl
  · exact Or.inl rfl
  · exact Or.inr rfl

/-- A sign may be missing. -/
theorem mem_sign_mul {L : Language Char} (hw : w ∈ L) : w ∈ sign * L :=
  Language.append_mem_mul (a := []) (mem_sign.2 (Or.inl rfl)) hw

end Growth

section Steps

variable {p q : Phase} {lexeme : List Char} {c : Char} {next : Option Char}

/-- Behind a sign, what is shifted makes a number of it. -/
theorem seen_of_moveSigned {s : Char} {followers : List Char} (hs : s = '+' ∨ s = '-')
    (hm : moveSigned followers c next = .shift q) : Seen [s, c] next q := by
  unfold moveSigned at hm
  split_ifs at hm with hdigit hpoint hnext hfollow
  · obtain rfl := Move.shift.inj hm
    exact signed_mem_mul hs (singleton_mem_numeral hdigit)
  · obtain rfl := Move.shift.inj hm
    obtain ⟨d, hd⟩ := (Option.any_eq_true _ _).1 hnext
    refine Or.inr ⟨?_, d, hd⟩
    rcases hs with rfl | rfl
    · exact Or.inl (by rw [hpoint])
    · exact Or.inr (by rw [hpoint])

/-- The first character puts the lexeme into the phase that it opens. -/
theorem seen_of_moveFirst (hc : c ∉ blankChars) (hm : moveFirst c = .shift q) :
    Seen [c] next q := by
  rcases kind_of_not_blank hc with h | h | h | h | h
  · rw [moveFirst_of_malformed h] at hm
    exact absurd hm (by simp)
  · rw [moveFirst_of_word h] at hm
    obtain rfl := Move.shift.inj hm
    exact mem_word.2 ⟨c, [], rfl, h, by simp⟩
  · rw [moveFirst_of_digit h] at hm
    obtain rfl := Move.shift.inj hm
    exact mem_sign_mul (singleton_mem_numeral h)
  · -- the six characters that open operators each have a phase of their own or share `symbol`
    simp only [operatorChars, List.mem_cons, List.not_mem_nil, or_false] at h
    rcases h with rfl | rfl | rfl | hsymbol
    · obtain rfl := Move.shift.inj hm
      rfl
    · obtain rfl := Move.shift.inj hm
      rfl
    · obtain rfl := Move.shift.inj hm
      rfl
    · have hmem : c ∈ symbols := by simpa [symbols] using hsymbol
      rw [moveFirst_of_symbol hmem] at hm
      obtain rfl := Move.shift.inj hm
      exact ⟨c, hmem, rfl⟩
  · rw [moveFirst_of_punctuation h] at hm
    exact absurd hm (by simp)

/-- **A shift keeps the invariant.** -/
theorem seen_of_shift (h : p.Seen lexeme (some c)) (hm : p.move c next = .shift q) :
    q.Seen (lexeme ++ [c]) next := by
  cases p with
  | start =>
    obtain ⟨rfl, d, hd, hblank⟩ := h
    obtain rfl := Option.some.inj hd
    exact seen_of_moveFirst hblank hm
  | word =>
    simp only [move] at hm
    split_ifs at hm with hc
    obtain rfl := Move.shift.inj hm
    exact concat_mem_word h (continuesWord_iff.1 hc)
  | integer =>
    simp only [move] at hm
    split_ifs at hm with hdigit hpoint
    · obtain rfl := Move.shift.inj hm
      exact concat_mem_mul h fun _ hv ↦ concat_mem_numeral hv hdigit
    · obtain rfl := Move.shift.inj hm
      rw [hpoint]
      exact Or.inl (concat_mem_mul h fun _ hv ↦ point_mem_fractional hv)
  | fraction =>
    simp only [move] at hm
    split_ifs at hm with hdigit
    obtain rfl := Move.shift.inj hm
    have hpoint : ['.', c] ∈ fractional :=
      mem_fractional.2 (Or.inr ⟨[c], singleton_mem_numeral hdigit, rfl⟩)
    -- either a fraction grows, or this is the digit that a sign and a point were waiting for
    rcases h with h | ⟨rfl | rfl, -⟩
    · exact Or.inl (concat_mem_mul h fun _ hv ↦ concat_mem_fractional hv hdigit)
    · exact Or.inl (signed_mem_mul (Or.inl rfl) hpoint)
    · exact Or.inl (signed_mem_mul (Or.inr rfl) hpoint)
  | point =>
    simp only [move] at hm
    split_ifs at hm with hdigit
    obtain rfl := Move.shift.inj hm
    obtain rfl : lexeme = ['.'] := h
    exact Or.inl (mem_sign_mul
      (mem_fractional.2 (Or.inr ⟨[c], singleton_mem_numeral hdigit, rfl⟩)))
  | plus =>
    obtain rfl : lexeme = ['+'] := h
    exact seen_of_moveSigned (Or.inl rfl) hm
  | minus =>
    obtain rfl : lexeme = ['-'] := h
    exact seen_of_moveSigned (Or.inr rfl) hm
  | symbol =>
    simp only [move] at hm
    split_ifs at hm

/-- Behind a sign, a last character is one of its followers. -/
theorem mem_of_moveSigned {followers : List Char} {k : Category}
    (hm : moveSigned followers c next = .last k) : c ∈ followers ∧ k = .operator := by
  unfold moveSigned at hm
  split_ifs at hm with _ _ _ hfollow
  exact ⟨hfollow, (Move.last.inj hm).symm⟩

/-- **A last character completes a lexeme of its category.** -/
theorem mem_language_of_last {k : Category} (h : p.Seen lexeme (some c))
    (hm : p.move c next = .last k) : lexeme ++ [c] ∈ k.language := by
  cases p with
  | start =>
    obtain ⟨rfl, d, hd, hblank⟩ := h
    obtain rfl := Option.some.inj hd
    have hm : moveFirst c = .last k := hm
    rcases kind_of_not_blank hblank with h | h | h | h | h
    · rw [moveFirst_of_malformed h] at hm
      obtain rfl := Move.last.inj hm
      exact ⟨c, h, rfl⟩
    · rw [moveFirst_of_word h] at hm
      exact absurd hm (by simp)
    · rw [moveFirst_of_digit h] at hm
      exact absurd hm (by simp)
    · have hshift : ∀ x ∈ operatorChars, ∃ q ∈ all, moveFirst x = .shift q := by decide
      obtain ⟨q, -, hq⟩ := hshift c h
      rw [hq] at hm
      exact absurd hm (by simp)
    · rw [moveFirst_of_punctuation h] at hm
      obtain rfl := Move.last.inj hm
      exact ⟨c, h, rfl⟩
  | plus =>
    obtain rfl : lexeme = ['+'] := h
    obtain ⟨hc, rfl⟩ := mem_of_moveSigned hm
    have hall : ∀ x ∈ plusFollowers, String.ofList ['+', x] ∈ operators := by decide
    exact hall c hc
  | minus =>
    obtain rfl : lexeme = ['-'] := h
    obtain ⟨hc, rfl⟩ := mem_of_moveSigned hm
    have hall : ∀ x ∈ minusFollowers, String.ofList ['-', x] ∈ operators := by decide
    exact hall c hc
  | symbol =>
    obtain ⟨s, hs, rfl⟩ := h
    simp only [move] at hm
    split_ifs at hm with hc
    obtain rfl := Move.last.inj hm
    have hall : ∀ x ∈ symbols, String.ofList [x, '='] ∈ operators := by decide
    rw [hc]
    exact hall s hs
  | word => simp only [move] at hm; split_ifs at hm
  | integer => simp only [move] at hm; split_ifs at hm
  | fraction => simp only [move] at hm; split_ifs at hm
  | point => simp only [move] at hm; split_ifs at hm

theorem mem_operator_of_toList {lexeme : String} {w : List Char} (h : lexeme.toList = w)
    (hw : String.ofList w ∈ operators) : lexeme.toList ∈ Category.operator.language := by
  rw [h]
  exact hw

/-- **A lexeme that ends in a phase is complete**: it is in the language of the category that the
phase closes it with, if what comes next was left unread or nothing comes next. -/
theorem mem_language_of_closing {lexeme : String} (h : p.Seen lexeme.toList next)
    (hm : ∀ c, next = some c → ∃ behind, p.move c behind = .stop) :
    lexeme.toList ∈ (p.closing lexeme).language := by
  cases p with
  | start =>
    obtain ⟨-, c, rfl, -⟩ := h
    obtain ⟨behind, hstop⟩ := hm c rfl
    exact absurd hstop (move_start_ne_stop c behind)
  | word =>
    have hword : lexeme.toList ∈ Grammar.word := h
    have hsame : String.ofList lexeme.toList ∈ reserved ↔ lexeme ∈ keywords := by
      rw [String.ofList_toList]
      rfl
    show lexeme.toList ∈ (wordCategory lexeme).language
    unfold wordCategory
    split_ifs with hkey
    · exact ⟨hword, hsame.2 hkey⟩
    · exact ⟨hword, fun hw ↦ hkey (hsame.1 hw)⟩
  | integer =>
    refine Language.mem_mul.2 ?_
    obtain ⟨s, hs, v, hv, hw⟩ := Language.mem_mul.1 h
    exact ⟨s, hs, v, unsigned_eq ▸ Or.inl hv, hw⟩
  | fraction =>
    rcases h with h | ⟨-, d, hd, hdigit⟩
    · obtain ⟨s, hs, v, hv, hw⟩ := Language.mem_mul.1 h
      exact Language.mem_mul.2 ⟨s, hs, v, unsigned_eq ▸ Or.inr hv, hw⟩
    · -- behind a sign and a point the digit is still to come, and it would have been taken
      obtain ⟨behind, hstop⟩ := hm d hd
      simp [move, hdigit] at hstop
  | point => exact mem_operator_of_toList h (by decide)
  | plus => exact mem_operator_of_toList h (by decide)
  | minus => exact mem_operator_of_toList h (by decide)
  | symbol =>
    obtain ⟨c, hc, hw⟩ := h
    have hall : ∀ x ∈ symbols, String.ofList [x] ∈ operators := by decide
    exact mem_operator_of_toList hw (hall c hc)

end Steps

/-- **What is taken belongs to the category decided on**, from every phase in which the invariant
holds. -/
theorem mem_language_verdict {p : Phase} {lexeme : String} {text : List Char}
    (h : p.Seen lexeme.toList text.head?) :
    lexeme.toList ++ p.taken text ∈ (p.verdict lexeme text).language := by
  induction text generalizing p lexeme with
  | nil =>
    rw [taken_nil, verdict_nil, List.append_nil]
    exact mem_language_of_closing h (by simp)
  | cons c rest ih =>
    rcases hm : p.move c rest.head? with q | k | _
    · rw [taken_of_shift hm, verdict_of_shift hm, List.append_cons, ← String.toList_push]
      refine ih ?_
      rw [String.toList_push]
      exact seen_of_shift h hm
    · rw [taken_of_last hm, verdict_of_last hm]
      exact mem_language_of_last h hm
    · rw [taken_of_stop hm, verdict_of_stop hm, List.append_nil]
      refine mem_language_of_closing h fun x hx ↦ ?_
      obtain rfl := Option.some.inj hx
      exact ⟨_, hm⟩

end Phase

end TokenScan
