import ConcordBft.Lib.Checked
import Mathlib.Data.List.Induction

set_option autoImplicit false

/-! # Typed cells

A store of named cells, each with values of its own type. A call may write to some cells; the value of
a cell after a history of calls is the one that was written last. A state machine that keeps the cells
in its own way implements the store if every step changes the content as its call says. -/

namespace Cells

variable {Call Cell : Type} {Value : Cell → Type}

/-- Writing one cell. -/
def only [DecidableEq Cell] (c₀ : Cell) (v : Value c₀) (c : Cell) : Option (Value c) :=
  if h : c₀ = c then some (h ▸ v) else none

@[simp] theorem only_self [DecidableEq Cell] (c : Cell) (v : Value c) : only c v c = some v :=
  dif_pos rfl

theorem only_of_ne [DecidableEq Cell] {c₀ c : Cell} (h : c₀ ≠ c) (v : Value c₀) :
    only c₀ v c = none :=
  dif_neg h

/-- The value that was written last to a cell. -/
def lastWritten (writes : Call → (c : Cell) → Option (Value c)) (initial : (c : Cell) → Value c)
    (history : List Call) (c : Cell) : Value c :=
  (history.reverse.findSome? fun call => writes call c).getD (initial c)

variable {writes : Call → (c : Cell) → Option (Value c)} {initial : (c : Cell) → Value c}

theorem lastWritten_concat (history : List Call) (call : Call) (c : Cell) :
    lastWritten writes initial (history ++ [call]) c =
      (writes call c).getD (lastWritten writes initial history c) := by
  unfold lastWritten
  rw [List.reverse_append, List.reverse_singleton, List.singleton_append, List.findSome?_cons]
  cases writes call c with
  | none => rfl
  | some v => rfl

/-- A content that differs in one cell. -/
theorem eq_only_getD [DecidableEq Cell] {content content' : (c : Cell) → Value c} {c₀ : Cell}
    {v : Value c₀} (hself : content' c₀ = v) (hother : ∀ c, c₀ ≠ c → content' c = content c)
    (c : Cell) : content' c = (only c₀ v c).getD (content c) := by
  by_cases h : c₀ = c
  · subst h
    rw [only_self]
    exact hself
  · rw [only_of_ne h]
    exact hother c h

/-- **Reading what was written.** If every step changes the content as its call says, then the content
    after a run is what the calls have written last. -/
theorem content_eq_lastWritten {St ε : Type} {step : St → Call → Except ε St} {init : St}
    {content : St → (c : Cell) → Value c} (Inv : St → Prop) (hinit : Inv init)
    (hcontent : ∀ c, content init c = initial c)
    (hstep : ∀ st call st', Inv st → step st call = .ok st' →
      Inv st' ∧ ∀ c, content st' c = (writes call c).getD (content st c))
    {calls : List Call} {st : St} (hrun : calls.foldlM step init = .ok st) :
    Inv st ∧ ∀ c, content st c = lastWritten writes initial calls c := by
  induction calls using List.reverseRecOn generalizing st with
  | nil =>
    cases hrun
    exact ⟨hinit, hcontent⟩
  | append_singleton calls call ih =>
    rw [List.foldlM_append] at hrun
    obtain ⟨before, hbefore, hlast⟩ := Checked.bind_eq_ok hrun
    obtain ⟨after, hafter, hst⟩ := Checked.bind_eq_ok hlast
    cases hst
    obtain ⟨hinv, heq⟩ := ih hbefore
    obtain ⟨hinv', hwrite⟩ := hstep before call _ hinv hafter
    refine ⟨hinv', ?_⟩
    intro c
    rw [hwrite, heq, lastWritten_concat]

end Cells
