import TokenScan.Cursor
import TokenScan.Recognizer.State

/-!
# The recognizer

The recognizer walks a cursor over one lexeme. It holds what that takes and nothing else: the
cursor, the state, the character it looked at last, the lexeme so far with the place where it
started, and the category once there is one. It knows nothing of configuration, counters or logs, so
what it recognizes cannot depend on them.

## Steps

`step` is one step of a phase: look at the next character and do what `Phase.move` says, or close
the lexeme at the end of input. `step_of_nil`, `step_of_shift`, `step_of_last` and `step_of_stop`
say what the recognizer is afterwards in each of the four cases, and are all that later arguments
need. `dispatch` is a step of the current state, which fails if that is no phase.

## Why a lexeme ends

Every step takes a character from the unread text or ends the lexeme. So the unread text itself
bounds the number of steps, with one more for the step that ends the lexeme, and `settle` recurses
on it.
-/

namespace TokenScan

/-- The working state for one lexeme. -/
structure Recognizer where
  /-- Where it stands. -/
  cursor : Cursor
  /-- The state between two steps. -/
  state : State
  /-- The character that the last step looked at; none at the end of input. -/
  current : Option Char
  /-- The lexeme as far as it has been read. -/
  lexeme : String
  /-- The category of the lexeme, once it is done. -/
  category : Option Category
  /-- Where the lexeme starts. -/
  saved : Position

namespace Recognizer

/-- A recognizer at the beginning of a text, done with nothing. -/
def ofText (cs : List Char) : Recognizer := ⟨.ofText cs, .done, none, "", none, .start⟩

/-! ### Single actions -/

/-- Drops the next character. -/
def drop (r : Recognizer) : Recognizer := { r with cursor := r.cursor.advance }

/-- Drops a number of characters and lists them; behind the end of input there are none. -/
def dropMany : Nat → Recognizer → List (Option Char) × Recognizer
  | 0, r => ([], r)
  | n + 1, r =>
    let (cs, r') := dropMany n r.drop
    (r.cursor.peek :: cs, r')

/-- Takes the next character into the lexeme; at the end of input there is none. -/
def take (r : Recognizer) : Recognizer :=
  match r.cursor.peek with
  | none => r
  | some c => { r.drop with lexeme := r.lexeme.push c }

/-- Remembers where the cursor stands as the start of a lexeme. -/
def save (r : Recognizer) : Recognizer := { r with saved := r.cursor.position }

/-- Looks at the next character. -/
def look (r : Recognizer) : Recognizer := { r with current := r.cursor.peek }

/-- Ends the lexeme with a category. -/
def finish (r : Recognizer) (category : Category) : Recognizer :=
  { r with state := .done, category := some category }

/-- Starts a lexeme at the cursor. -/
def begin (r : Recognizer) : Recognizer :=
  { r.save with lexeme := "", category := none, state := .scanning .start }

/-! ### Steps -/

/-- Takes one step of a phase. -/
def step (r : Recognizer) (p : Phase) : Recognizer :=
  let r := r.look
  match r.cursor.rest with
  | [] => r.finish (p.closing r.lexeme)
  | c :: rest =>
    match p.move c rest.head? with
    | .shift next => { r.take with state := .scanning next }
    | .last category => r.take.finish category
    | .stop => r.finish (p.closing r.lexeme)

/-- Takes one step of the current state, if it has one. -/
def dispatch (r : Recognizer) : Except StateError Recognizer :=
  match r.state with
  | .scanning p => .ok (r.step p)
  | state => .error ⟨.state state, r.cursor.position.offset⟩

/-- Takes steps until the lexeme is done; the unread text bounds their number. -/
def settle : List Char → Recognizer → Recognizer
  | [], r =>
    match r.state with
    | .scanning p => r.step p
    | _ => r
  | _ :: unread, r =>
    match r.state with
    | .scanning p => settle unread (r.step p)
    | _ => r

/-- Recognizes the lexeme that starts at the cursor. -/
def recognize (r : Recognizer) : Recognizer := settle r.cursor.rest r.begin

/-! ### What a step does -/

section Step

variable {r : Recognizer} {p : Phase} {c : Char} {rest : List Char}

/-- At the end of input, the lexeme is closed as it is. -/
theorem step_of_nil (hr : r.cursor.rest = []) :
    r.step p =
      { r with
        current := none
        state := .done
        category := some (p.closing r.lexeme) } := by
  simp [step, look, finish, hr, Cursor.peek]

/-- A character that a phase shifts joins the lexeme. -/
theorem step_of_shift {q : Phase} (hr : r.cursor.rest = c :: rest)
    (hm : p.move c rest.head? = .shift q) :
    r.step p =
      { r with
        cursor := ⟨r.cursor.position.advance c, rest⟩
        current := some c
        lexeme := r.lexeme.push c
        state := .scanning q } := by
  simp [step, look, take, drop, Cursor.peek, Cursor.advance, hr, hm]

/-- A last character joins the lexeme, which then is done. -/
theorem step_of_last {k : Category} (hr : r.cursor.rest = c :: rest)
    (hm : p.move c rest.head? = .last k) :
    r.step p =
      { r with
        cursor := ⟨r.cursor.position.advance c, rest⟩
        current := some c
        lexeme := r.lexeme.push c
        state := .done
        category := some k } := by
  simp [step, look, take, drop, finish, Cursor.peek, Cursor.advance, hr, hm]

/-- A character that a phase stops at is left unread. -/
theorem step_of_stop (hr : r.cursor.rest = c :: rest) (hm : p.move c rest.head? = .stop) :
    r.step p =
      { r with
        current := some c
        state := .done
        category := some (p.closing r.lexeme) } := by
  simp [step, look, finish, Cursor.peek, hr, hm]

end Step

/-! ### Why a lexeme ends -/

/-- Nothing happens to a lexeme that is done. -/
theorem settle_of_done {r : Recognizer} (h : r.state = .done) (unread : List Char) :
    settle unread r = r := by
  cases unread <;> simp [settle, h]

/-- **A lexeme ends with a category**, from every phase and on every text. -/
theorem settle_of_scanning {r : Recognizer} {p : Phase} (h : r.state = .scanning p) :
    (settle r.cursor.rest r).state = .done ∧ (settle r.cursor.rest r).category.isSome := by
  generalize hr : r.cursor.rest = rest
  induction rest generalizing r p with
  | nil => simp [settle, h, step_of_nil hr]
  | cons c rest ih =>
    simp only [settle, h]
    rcases hm : p.move c rest.head? with q | k | _
    · rw [step_of_shift hr hm]
      exact ih rfl rfl
    · rw [step_of_last hr hm, settle_of_done rfl]
      exact ⟨rfl, rfl⟩
    · rw [step_of_stop hr hm, settle_of_done rfl]
      exact ⟨rfl, rfl⟩

end Recognizer

end TokenScan
