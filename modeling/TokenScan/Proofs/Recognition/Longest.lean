import TokenScan.Proofs.Recognition.Seen

/-!
# The recognizer takes the longest lexeme

From any text that does not start with a blank, the recognizer takes the longest prefix that is a
lexeme, with the category of the one language it belongs to (`longest_taken`). That the prefix is a
lexeme was seen from behind, by what each phase remembers. That it is the longest is seen from
ahead, by what each phase expects: `Phase.tail` says which texts may still complete a lexeme. A
character that starts such a text is never left unread, and what follows it completes the lexeme
from the next phase on (`follows_of_cons_mem_tail`); so nothing that would complete a lexeme is left
behind (`length_le_taken`).
-/

open scoped Computability

namespace TokenScan

open Grammar

/-! ### Longest lexemes -/

/-- **The longest lexeme of a text**: a prefix in the language of a category, such that no longer
prefix is a lexeme of any category. -/
structure Longest (text w : List Char) (k : Category) : Prop where
  /-- It is a prefix. -/
  isPrefix : w <+: text
  /-- It is a lexeme of the category. -/
  mem : w ∈ k.language
  /-- No prefix that is a lexeme is longer. -/
  longest : ∀ v, v <+: text → v ∈ lexeme → v.length ≤ w.length

/-- A text has one longest lexeme, of one category. -/
theorem Longest.unique {text v w : List Char} {k l : Category} (hv : Longest text v k)
    (hw : Longest text w l) : v = w ∧ k = l := by
  have hlen : v.length = w.length :=
    Nat.le_antisymm (hw.longest v hv.isPrefix ⟨k, hv.mem⟩) (hv.longest w hw.isPrefix ⟨l, hw.mem⟩)
  have hprefix : v <+: w := List.prefix_of_prefix_length_le hv.isPrefix hw.isPrefix hlen.le
  obtain rfl : v = w := hprefix.eq_of_length hlen
  exact ⟨rfl, language_unique hv.mem hw.mem⟩

namespace Phase

/-! ### What may still come -/

/-- **What completes a lexeme from a phase on.** -/
def tail : Phase → Language Char
  | start => lexeme
  | word => (single WordChar)∗
  | integer => digit∗ * (1 + literal "." * digit∗)
  | fraction => digit∗
  | point => digit∗
  | plus => 1 + literal "+" + literal "=" + unsigned
  | minus => 1 + literal "-" + literal "=" + unsigned
  | symbol => 1 + literal "="

/-- A character that starts what completes a lexeme is taken: either it is the last one, or the rest
completes the lexeme from the next phase on. -/
def Follows (p : Phase) (c : Char) (u : List Char) (next : Option Char) : Prop :=
  (∃ q, p.move c next = .shift q ∧ u ∈ q.tail) ∨ ∃ k, p.move c next = .last k ∧ u = []

section Completion

variable {c : Char} {u : List Char} {next : Option Char}

theorem mem_kstar_of_mem_numeral (h : u ∈ numeral) : u ∈ digit∗ := by
  obtain ⟨c, v, rfl, hc, hv⟩ := mem_numeral.1 h
  rw [mem_digit_kstar]
  simpa using ⟨hc, hv⟩

theorem cons_mem_digit_kstar : c :: u ∈ digit∗ ↔ c.isDigit = true ∧ u ∈ digit∗ := by
  simp [mem_digit_kstar]

/-- What completes a number from its digits on: more digits, or a point and more digits. -/
theorem mem_tail_integer :
    u ∈ integer.tail ↔ u ∈ digit∗ ∨ ∃ a b, a ∈ digit∗ ∧ b ∈ digit∗ ∧ u = a ++ '.' :: b := by
  rw [tail, mul_add, mul_one, Language.mem_add]
  refine or_congr Iff.rfl ?_
  constructor
  · intro h
    obtain ⟨a, ha, v, hv, rfl⟩ := Language.mem_mul.1 h
    obtain ⟨-, rfl, b, hb, rfl⟩ := Language.mem_mul.1 hv
    exact ⟨a, b, ha, hb, rfl⟩
  · rintro ⟨a, b, ha, hb, rfl⟩
    exact Language.append_mem_mul ha (Language.append_mem_mul (a := ['.']) rfl hb)

/-- A number without a sign is a digit and what completes it, or a point and digits. -/
theorem cons_mem_unsigned (h : c :: u ∈ unsigned) :
    (c.isDigit = true ∧ u ∈ integer.tail) ∨ (c = '.' ∧ u ∈ numeral) := by
  rcases mem_unsigned.1 h with h | ⟨a, b, ha, hb, he⟩ | ⟨b, hb, he⟩
  · obtain ⟨_, _, he, hc, hu⟩ := mem_numeral.1 h
    obtain ⟨rfl, rfl⟩ := List.cons.inj he
    exact Or.inl ⟨hc, mem_tail_integer.2 (Or.inl (mem_digit_kstar.2 hu))⟩
  · obtain ⟨d, v, rfl, hd, hv⟩ := mem_numeral.1 ha
    obtain ⟨rfl, rfl⟩ := List.cons.inj he
    exact Or.inl ⟨hd, mem_tail_integer.2 (Or.inr ⟨v, b, mem_digit_kstar.2 hv, hb, rfl⟩)⟩
  · obtain ⟨rfl, rfl⟩ := List.cons.inj he
    exact Or.inr ⟨rfl, hb⟩

/-- Behind a sign, a number goes on. The point of a fraction is taken since a digit follows it. -/
theorem follows_of_unsigned {p : Phase} {followers : List Char}
    (hp : p.move c next = moveSigned followers c next) (h : c :: u ∈ unsigned)
    (hnext : ∀ x, u.head? = some x → next = some x) : p.Follows c u next := by
  rcases cons_mem_unsigned h with ⟨hc, hu⟩ | ⟨rfl, hu⟩
  · exact Or.inl ⟨integer, by simp [hp, moveSigned, hc], hu⟩
  · obtain ⟨d, v, rfl, hd, -⟩ := mem_numeral.1 hu
    obtain rfl := hnext d rfl
    exact Or.inl ⟨fraction, by simp [hp, moveSigned, hd], mem_kstar_of_mem_numeral hu⟩

/-- The first character of a lexeme is taken, into the phase that it opens. -/
theorem follows_of_mem_language {k : Category} (h : c :: u ∈ k.language) :
    start.Follows c u next := by
  cases k with
  | keyword =>
    obtain ⟨_, _, he, hc, hu⟩ := mem_word.1 h.1
    obtain ⟨rfl, rfl⟩ := List.cons.inj he
    exact Or.inl ⟨word, moveFirst_of_word hc, mem_single_kstar.2 hu⟩
  | identifier =>
    obtain ⟨_, _, he, hc, hu⟩ := mem_word.1 h.1
    obtain ⟨rfl, rfl⟩ := List.cons.inj he
    exact Or.inl ⟨word, moveFirst_of_word hc, mem_single_kstar.2 hu⟩
  | number =>
    rcases mem_number.1 h with h | ⟨s, v, hs, hv, he⟩
    · rcases cons_mem_unsigned h with ⟨hc, hu⟩ | ⟨rfl, hu⟩
      · exact Or.inl ⟨integer, moveFirst_of_digit hc, hu⟩
      · exact Or.inl ⟨point, rfl, mem_kstar_of_mem_numeral hu⟩
    · obtain ⟨rfl, rfl⟩ := List.cons.inj he
      rcases hs with rfl | rfl
      · exact Or.inl ⟨plus, rfl, Or.inr hv⟩
      · exact Or.inl ⟨minus, rfl, Or.inr hv⟩
  | operator =>
    have hall : ∀ s ∈ operators, ∀ x ∈ s.toList.take 1,
        (x = '.' ∧ s.toList.tail = []) ∨ (x = '+' ∧ s.toList.tail ∈ [[], ['+'], ['=']]) ∨
          (x = '-' ∧ s.toList.tail ∈ [[], ['-'], ['=']]) ∨
            (x ∈ symbols ∧ s.toList.tail ∈ [[], ['=']]) := by
      decide
    have hc := hall _ h c (by simp)
    simp only [String.toList_ofList, List.tail_cons, List.mem_cons, List.not_mem_nil,
      or_false] at hc
    rcases hc with ⟨rfl, rfl⟩ | ⟨rfl, hu⟩ | ⟨rfl, hu⟩ | ⟨hc, hu⟩
    · exact Or.inl ⟨point, rfl, Language.nil_mem_kstar _⟩
    · exact Or.inl ⟨plus, rfl, Or.inl (or_assoc.2 hu)⟩
    · exact Or.inl ⟨minus, rfl, Or.inl (or_assoc.2 hu)⟩
    · exact Or.inl ⟨symbol, moveFirst_of_symbol (by simpa [symbols] using hc), hu⟩
  | punctuation =>
    obtain ⟨_, hc, he⟩ := h
    obtain ⟨rfl, rfl⟩ := List.cons.inj he
    exact Or.inr ⟨.punctuation, moveFirst_of_punctuation hc, rfl⟩
  | malformed =>
    obtain ⟨_, hc, he⟩ := h
    obtain ⟨rfl, rfl⟩ := List.cons.inj he
    exact Or.inr ⟨.malformed, moveFirst_of_malformed hc, rfl⟩

/-- A last character completes a lexeme, if nothing is left to complete behind it. -/
theorem follows_of_last {p : Phase} {k : Category} (d : Char) (h : c :: u = [d])
    (hm : p.move d next = .last k) : p.Follows c u next := by
  obtain ⟨rfl, rfl⟩ := List.cons.inj h
  exact Or.inr ⟨k, hm, rfl⟩

/-- **Nothing that completes a lexeme is refused**, from any phase. -/
theorem follows_of_cons_mem_tail {p : Phase} (h : c :: u ∈ p.tail)
    (hnext : ∀ x, u.head? = some x → next = some x) : p.Follows c u next := by
  cases p with
  | start =>
    obtain ⟨k, hk⟩ := h
    exact follows_of_mem_language hk
  | word =>
    have hall : ∀ x ∈ c :: u, WordChar x := mem_single_kstar.1 h
    have hc : continuesWord c = true := continuesWord_iff.2 (hall c (by simp))
    exact Or.inl ⟨word, by simp [move, hc],
      mem_single_kstar.2 fun x hx ↦ hall x (List.mem_cons_of_mem c hx)⟩
  | integer =>
    rcases mem_tail_integer.1 h with h | ⟨a, b, ha, hb, he⟩
    · obtain ⟨hc, hu⟩ := cons_mem_digit_kstar.1 h
      exact Or.inl ⟨integer, by simp [move, hc], mem_tail_integer.2 (Or.inl hu)⟩
    · cases a with
      | nil =>
        obtain ⟨rfl, rfl⟩ := List.cons.inj he
        exact Or.inl ⟨fraction, rfl, hb⟩
      | cons d v =>
        obtain ⟨rfl, rfl⟩ := List.cons.inj he
        obtain ⟨hc, hv⟩ := cons_mem_digit_kstar.1 ha
        exact Or.inl ⟨integer, by simp [move, hc],
          mem_tail_integer.2 (Or.inr ⟨v, b, hv, hb, rfl⟩)⟩
  | fraction =>
    obtain ⟨hc, hu⟩ := cons_mem_digit_kstar.1 h
    exact Or.inl ⟨fraction, by simp [move, hc], hu⟩
  | point =>
    obtain ⟨hc, hu⟩ := cons_mem_digit_kstar.1 h
    exact Or.inl ⟨fraction, by simp [move, hc], hu⟩
  | plus =>
    rcases h with ((h | h) | h) | h
    · exact absurd h (List.cons_ne_nil c u)
    · exact follows_of_last '+' h rfl
    · exact follows_of_last '=' h rfl
    · exact follows_of_unsigned rfl h hnext
  | minus =>
    rcases h with ((h | h) | h) | h
    · exact absurd h (List.cons_ne_nil c u)
    · exact follows_of_last '-' h rfl
    · exact follows_of_last '=' h rfl
    · exact follows_of_unsigned rfl h hnext
  | symbol =>
    rcases h with h | h
    · exact absurd h (List.cons_ne_nil c u)
    · exact follows_of_last '=' h rfl

end Completion

/-- **Nothing that completes a lexeme is left behind.** -/
theorem length_le_taken {p : Phase} {u text : List Char} (hu : u ∈ p.tail) (hp : u <+: text) :
    u.length ≤ (p.taken text).length := by
  induction text generalizing p u with
  | nil =>
    rw [List.prefix_nil.1 hp]
    exact Nat.zero_le _
  | cons c rest ih =>
    cases u with
    | nil => exact Nat.zero_le _
    | cons d v =>
      obtain ⟨rfl, hv⟩ := List.cons_prefix_cons.1 hp
      -- what the completion shows next is what the text shows next
      have hnext : ∀ x, v.head? = some x → rest.head? = some x := by
        intro x hx
        obtain ⟨behind, rfl⟩ := hv
        simp [List.head?_append, hx]
      rcases follows_of_cons_mem_tail hu hnext with ⟨q, hm, hq⟩ | ⟨k, hm, rfl⟩
      · rw [taken_of_shift hm]
        exact Nat.succ_le_succ (ih hq hv)
      · rw [taken_of_last hm]

/-- **The longest lexeme is taken**, and with its category, wherever a text starts with no blank. -/
theorem longest_taken {c : Char} (hc : c ∉ blankChars) (rest : List Char) :
    Longest (c :: rest) (start.taken (c :: rest)) (start.verdict "" (c :: rest)) where
  isPrefix := taken_prefix start (c :: rest)
  mem := by
    have hseen : start.Seen "".toList (c :: rest).head? := ⟨rfl, c, rfl, hc⟩
    exact mem_language_verdict hseen
  longest _ hv hlex := length_le_taken hlex hv

end Phase

end TokenScan
