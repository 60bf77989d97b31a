import Mathlib.Data.List.Basic
import TokenScan.Workspace

/-!
# Which configuration is in force

Blocks are entered and left in the course of commands, and a scope keeps what it has to go back to.
Here the same is said from the commands alone, looking back from the end (`inForce`): what counts is
the last configuration that was put in force since the innermost open block was entered, and else
the configuration of that block. A block that has been left again does not count, nor does anything
inside of it.

This is what a scope does as long as blocks are properly nested, which `Command.blocks` says by the
list of open blocks (`current_performAll`). A block may be left at any point, at the end of its
commands or because one of them failed and the others were given up: for the scope this is the same.
What a scope remembers is then exactly one configuration for each open block, the one that is in
force again when the block is left (`Scope.Remembers`), and each command keeps it so.
-/

namespace TokenScan

/-! ### Properly nested blocks -/

/-- The open blocks behind a command, the innermost first. There are none to speak of if the command
enters a block under a name that is in use, or leaves one that is not the innermost. -/
def Command.blocks (entered : List String) : Command → Option (List String)
  | .enter block _ => if block ∈ entered then none else some (block :: entered)
  | .leave block =>
    match entered with
    | [] => none
    | innermost :: outer => if block = innermost then some outer else none
  | _ => some entered

theorem Command.blocks_enter_eq_some {entered entered' : List String} {block : String}
    {config : Config} :
    (Command.enter block config).blocks entered = some entered' ↔
      block ∉ entered ∧ block :: entered = entered' := by
  simp [blocks]

theorem Command.blocks_leave_eq_some {entered entered' : List String} {block : String} :
    (Command.leave block).blocks entered = some entered' ↔ entered = block :: entered' := by
  cases entered with
  | nil => simp [blocks]
  | cons innermost outer => simp [blocks, eq_comm]

/-- **Commands with properly nested blocks**, which lead from some open blocks to others. -/
def Nested (entered : List String) (cs : List Command) (entered' : List String) : Prop :=
  cs.foldlM Command.blocks entered = some entered'

/-- **The configuration in force behind commands**, given with the last one first, once so many of
the open blocks are left. -/
def inForce : ℕ → List Command → Config
  | _, [] => .default
  | depth, c :: past =>
    match c with
    | .setConfig config => if depth = 0 then config else inForce depth past
    | .resetConfig => if depth = 0 then .default else inForce depth past
    | .enter _ config => if depth = 0 then config else inForce (depth - 1) past
    | .leave _ => inForce (depth + 1) past
    | _ => inForce depth past

/-! ### What a scope remembers -/

/-- What a command does to the scope. -/
def Scope.obey (s : Scope) : Command → Scope
  | .setConfig config => s.set config
  | .resetConfig => s.reset
  | .enter block config => s.enter block config
  | .leave block => s.leave block
  | _ => s

namespace Workspace

theorem scope_act (w : Workspace) (number : ℕ) (own : Bool)
    (f : Session → Except Failure Reply × Session) : (w.act number own f).2.scope = w.scope := by
  unfold act
  split
  · rfl
  · rfl

theorem scope_actStream (w : Workspace) (name : String) (idle : Reply)
    (f : Session → Reply × Session) : (w.actStream name idle f).2.scope = w.scope := by
  unfold actStream
  split
  · rfl
  · exact w.scope_act _ _ _

/-- **Commands on sessions leave the scope alone**, and the others do to it what they say. -/
theorem scope_perform (w : Workspace) (c : Command) : (w.perform c).2.scope = w.scope.obey c := by
  cases c with
  | operate name operation =>
    simp only [perform]
    split
    · rfl
    · exact w.scope_act _ _ _
  | share name stream =>
    simp only [perform]
    split
    · rfl
    · exact (w.putStream stream _).scope_act _ _ _
  | close stream =>
    simp only [perform]
    split
    · rfl
    · exact (w.putStream stream _).scope_actStream _ _ _
  | pull stream count => exact w.scope_actStream _ _ _
  | drain stream => exact w.scope_actStream _ _ _
  | _ => rfl

end Workspace

namespace Scope

variable {s : Scope} {entered entered' : List String} {past : List Command}

/-- A scope behind commands, the last one first: one configuration is in force, and for each open
block it remembers the one that is in force again when the block is left. -/
structure Remembers (s : Scope) (entered : List String) (past : List Command) : Prop where
  /-- What is in force. -/
  current_eq : s.current = inForce 0 past
  /-- No block is open twice. -/
  nodup : entered.Nodup
  /-- What is remembered, the innermost block first. -/
  remembered_eq : s.remembered = entered.mapIdx fun i block ↦ (block, inForce (i + 1) past)

theorem remembers_initial : initial.Remembers [] [] := ⟨rfl, .nil, rfl⟩

/-- There is nothing to forget of a block that is not open. -/
theorem filter_ne_of_notMem {block : String} (hblock : block ∉ entered) (f : ℕ → Config) :
    ((entered.mapIdx fun i block ↦ (block, f i)).filter fun entry ↦ entry.1 != block) =
      entered.mapIdx fun i block ↦ (block, f i) := by
  refine List.filter_eq_self.2 fun entry hentry ↦ ?_
  obtain ⟨i, hi, rfl⟩ := List.mem_mapIdx.1 hentry
  exact bne_iff_ne.2 fun heq ↦ hblock (heq ▸ List.getElem_mem hi)

/-- A block that is entered remembers what was in force. -/
theorem Remembers.enter (h : s.Remembers entered past) {block : String}
    (hblock : block ∉ entered) (config : Config) :
    (s.enter block config).Remembers (block :: entered) (.enter block config :: past) where
  current_eq := rfl
  nodup := List.nodup_cons.2 ⟨hblock, h.nodup⟩
  remembered_eq := by
    rw [Scope.enter, forget, h.remembered_eq, filter_ne_of_notMem hblock, h.current_eq,
      List.mapIdx_cons]
    rfl

/-- The innermost block brings back what it remembers, and the others keep theirs. -/
theorem Remembers.leave {block : String} (h : s.Remembers (block :: entered) past) :
    (s.leave block).Remembers entered (.leave block :: past) := by
  have hnodup := List.nodup_cons.1 h.nodup
  have hremembered := h.remembered_eq
  rw [List.mapIdx_cons] at hremembered
  have hlookup : s.remembered.lookup block = some (inForce 1 past) := by
    rw [hremembered]
    exact List.lookup_cons_self
  have hforget : s.forget block =
      entered.mapIdx fun i block ↦ (block, inForce (i + 1 + 1) past) := by
    rw [forget, hremembered, List.filter_cons_of_neg (by simp)]
    exact filter_ne_of_notMem hnodup.1 _
  rw [Scope.leave, hlookup]
  exact ⟨rfl, hnodup.2, hforget⟩

/-- **One command**: what it does to the scope is what it does to the open blocks and to what is in
force. -/
theorem Remembers.obey (h : s.Remembers entered past) {c : Command}
    (hc : c.blocks entered = some entered') : (s.obey c).Remembers entered' (c :: past) := by
  cases c with
  | enter block config =>
    obtain ⟨hblock, rfl⟩ := Command.blocks_enter_eq_some.1 hc
    exact h.enter hblock config
  | leave block =>
    obtain rfl := Command.blocks_leave_eq_some.1 hc
    exact h.leave
  | setConfig config =>
    obtain rfl : entered = entered' := Option.some.inj hc
    exact ⟨rfl, h.nodup, h.remembered_eq⟩
  | resetConfig =>
    obtain rfl : entered = entered' := Option.some.inj hc
    exact ⟨rfl, h.nodup, h.remembered_eq⟩
  | _ =>
    obtain rfl : entered = entered' := Option.some.inj hc
    exact ⟨h.current_eq, h.nodup, h.remembered_eq⟩

end Scope

/-! ### What is in force behind commands -/

theorem nested_cons_iff {entered entered' : List String} {c : Command} {cs : List Command} :
    Nested entered (c :: cs) entered' ↔
      ∃ between, c.blocks entered = some between ∧ Nested between cs entered' := by
  rw [Nested, List.foldlM_cons]
  exact Option.bind_eq_some_iff

theorem Nested.exists_of_append {entered entered' : List String} {cs cs' : List Command}
    (h : Nested entered (cs ++ cs') entered') :
    ∃ between, Nested entered cs between ∧ Nested between cs' entered' := by
  rw [Nested, List.foldlM_append] at h
  exact Option.bind_eq_some_iff.1 h

/-- **All commands**, by one after the other. -/
theorem Scope.Remembers.performAll {w : Workspace} {entered entered' : List String}
    {past cs : List Command} (h : w.scope.Remembers entered past)
    (hcs : Nested entered cs entered') :
    (w.performAll cs).2.scope.Remembers entered' (cs.reverse ++ past) := by
  induction cs generalizing w entered past with
  | nil =>
    obtain rfl : entered = entered' := Option.some.inj hcs
    exact h
  | cons c cs ih =>
    obtain ⟨between, hc, hcs⟩ := nested_cons_iff.1 hcs
    rw [List.reverse_cons, List.append_assoc]
    exact ih (w.scope_perform c ▸ h.obey hc) hcs

/-- **A scope has in force what the commands say**, as long as blocks are properly nested. -/
theorem current_performAll {cs : List Command} {entered : List String}
    (hcs : Nested [] cs entered) :
    (Workspace.empty.performAll cs).2.scope.current = inForce 0 cs.reverse := by
  have h : (Workspace.empty.performAll cs).2.scope.Remembers entered (cs.reverse ++ []) :=
    Scope.Remembers.performAll Scope.remembers_initial hcs
  rw [List.append_nil] at h
  exact h.current_eq

/-- What is in force outside of an open block does not depend on what is done inside. -/
theorem inForce_of_nested {entered entered' : List String} {body : List Command}
    (hbody : Nested entered body entered') (past : List Command) :
    inForce (entered'.length + 1) (body.reverse ++ past) = inForce (entered.length + 1) past := by
  induction body generalizing entered past with
  | nil =>
    obtain rfl : entered = entered' := Option.some.inj hbody
    rfl
  | cons c body ih =>
    obtain ⟨between, hc, hbody⟩ := nested_cons_iff.1 hbody
    rw [List.reverse_cons, List.append_assoc]
    refine (ih hbody (c :: past)).trans ?_
    cases c with
    | enter block config =>
      obtain ⟨-, rfl⟩ := Command.blocks_enter_eq_some.1 hc
      rfl
    | leave block =>
      obtain rfl := Command.blocks_leave_eq_some.1 hc
      rfl
    | _ =>
      obtain rfl : entered = between := Option.some.inj hc
      rfl

/-- **A block leaves no trace**: behind it is in force what was in force before it, whatever its
body did. -/
theorem current_performAll_block {earlier body : List Command} {block : String} {config : Config}
    {entered : List String}
    (h : Nested [] (earlier ++ .enter block config :: (body ++ [.leave block])) entered)
    (hbody : Nested [] body []) :
    (Workspace.empty.performAll
        (earlier ++ .enter block config :: (body ++ [.leave block]))).2.scope.current =
      (Workspace.empty.performAll earlier).2.scope.current := by
  obtain ⟨between, hearlier, -⟩ := h.exists_of_append
  rw [current_performAll h, current_performAll hearlier]
  simp only [List.reverse_append, List.reverse_cons, List.append_assoc]
  exact inForce_of_nested hbody (.enter block config :: earlier.reverse)

end TokenScan
