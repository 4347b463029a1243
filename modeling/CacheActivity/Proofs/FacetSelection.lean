import CacheActivity.Dashboard
import Mathlib.Algebra.Ring.Parity
import Mathlib.Data.List.Induction

/-!
# Choosing facets one by one

A value is chosen after some picks if it was selected last, exclusive or toggled an odd number of
times since then (`mem_choice_pickAll`). The order of a choice shows nowhere: dashboards that differ
in it alone show the same (`Alike.view_eq`), and stay so through further picks (`Alike.pickAll`). No
pick touches anything but the selection (`pickAll_eq`).
-/

namespace CacheActivity

open Usage (Choice Row Selection View)

inductive Facet where
  | apiKey
  | model
  deriving DecidableEq

inductive Pick where
  | select (facet : Facet) (values : List String)
  | toggle (facet : Facet) (value : String)
  deriving DecidableEq

namespace Pick

/-- The values that a pick puts in place of what was chosen by a facet. -/
def selected? (f : Facet) : Pick → Option (List String)
  | select g values => if g = f then some values else none
  | toggle .. => none

/-- The values that are selected last. -/
def lastSelected? (f : Facet) (picks : List Pick) : Option (List String) :=
  picks.reverse.findSome? (selected? f)

/-- The picks behind the last selection, the latest in front. -/
def sinceSelected (f : Facet) (picks : List Pick) : List Pick :=
  picks.reverse.takeWhile fun p => (p.selected? f).isNone

theorem lastSelected?_concat (f : Facet) (picks : List Pick) (p : Pick) :
    lastSelected? f (picks ++ [p]) = (p.selected? f).or (lastSelected? f picks) := by
  rw [lastSelected?, List.reverse_concat, List.findSome?_cons]
  cases p.selected? f <;> rfl

theorem sinceSelected_concat (f : Facet) (picks : List Pick) (p : Pick) :
    sinceSelected f (picks ++ [p]) =
      if (p.selected? f).isNone then p :: sinceSelected f picks else [] := by
  rw [sinceSelected, List.reverse_concat, List.takeWhile_cons]
  rfl

end Pick

def Usage.Selection.choice (s : Selection) : Facet → Choice
  | .apiKey => s.apiKeys
  | .model => s.models

namespace Dashboard

variable {d e : Dashboard}

def pick (d : Dashboard) : Pick → Dashboard
  | .select .apiKey keys => d.selectApiKeys keys
  | .select .model models => d.selectModels models
  | .toggle .apiKey key => d.toggleApiKey key
  | .toggle .model model => d.toggleModel model

def pickAll (picks : List Pick) (d : Dashboard) : Dashboard := picks.foldl pick d

theorem pickAll_append (picks more : List Pick) (d : Dashboard) :
    d.pickAll (picks ++ more) = (d.pickAll picks).pickAll more := List.foldl_append

theorem pickAll_nil (d : Dashboard) : d.pickAll [] = d := rfl

theorem pickAll_concat (picks : List Pick) (p : Pick) (d : Dashboard) :
    d.pickAll (picks ++ [p]) = (d.pickAll picks).pick p := pickAll_append picks [p] d

theorem pickAll_cons (p : Pick) (picks : List Pick) (d : Dashboard) :
    d.pickAll (p :: picks) = (d.pick p).pickAll picks := rfl

/-- A pick changes the selection and nothing else. -/
theorem pick_eq (d : Dashboard) (p : Pick) :
    d.pick p = { d with selection := (d.pick p).selection } := by
  rcases p with ⟨_ | _, values⟩ | ⟨_ | _, value⟩ <;> rfl

theorem pickAll_eq (picks : List Pick) (d : Dashboard) :
    d.pickAll picks = { d with selection := (d.pickAll picks).selection } := by
  induction picks generalizing d with
  | nil => rfl
  | cons p picks ih => rw [pickAll_cons, ih, pick_eq d p]

theorem receive_withSelection (d : Dashboard) (s : Selection) (t : Ticket) (rows : List Row) :
    receive t rows { d with selection := s } =
      ((d.receive t rows).1, { (d.receive t rows).2 with selection := s }) := by
  by_cases h : d.Accepts t
  · rw [receive_of_accepts h, receive_of_accepts (show Accepts { d with selection := s } t from h)]
  · rw [receive_of_not_accepts h,
      receive_of_not_accepts (show ¬Accepts { d with selection := s } t from h)]

/-- What is chosen by a facet after a pick: the values of a new selection, or what was chosen before
without a toggled value that was in it, and with one that was not. -/
theorem mem_choice_pick (d : Dashboard) (p : Pick) (f : Facet) (v : String) :
    v ∈ (d.pick p).selection.choice f ↔
      match p.selected? f with
      | some values => v ∈ values
      | none => Xor (v ∈ d.selection.choice f) (p = .toggle f v) := by
  have htoggle (c : Choice) (w : String) : v ∈ c.toggle w ↔ Xor (v ∈ c) (w = v) := by
    rw [Choice.mem_toggle, xor_iff_iff_not]
    by_cases hw : w = v
    · simp [hw]
    · simp [hw, Ne.symm hw]
  rcases p with ⟨g, values⟩ | ⟨g, w⟩ <;> cases f <;> cases g <;>
    simp [pick, Pick.selected?, selectApiKeys, selectModels, toggleApiKey, toggleModel,
      Selection.choice, htoggle, xor_iff_iff_not]

/-- A value is chosen in the end if it was selected last, or chosen at first where nothing was,
exclusive or toggled an odd number of times since then. -/
theorem mem_choice_pickAll (picks : List Pick) (d : Dashboard) (f : Facet) (v : String) :
    v ∈ (d.pickAll picks).selection.choice f ↔
      Xor (v ∈ (Pick.lastSelected? f picks).getD (d.selection.choice f).values)
        (Odd ((Pick.sinceSelected f picks).count (.toggle f v))) := by
  induction picks using List.reverseRecOn with
  | nil =>
    have hnone : ¬Odd 0 := by decide
    exact (xor_iff_iff_not.trans (iff_true_right hnone)).symm
  | append_singleton picks p ih =>
    rw [pickAll_concat, mem_choice_pick, Pick.lastSelected?_concat, Pick.sinceSelected_concat]
    cases p.selected? f with
    | some values => simp [xor_iff_iff_not]
    | none =>
      simp only [ih, Option.none_or, Option.isNone_none, if_true, List.count_cons, beq_iff_eq]
      by_cases hp : p = .toggle f v
      · simp only [hp, if_true, Nat.odd_add_one, xor_iff_iff_not]
        tauto
      · simp [hp, xor_iff_iff_not]

/-- That dashboards differ in nothing but the order of what is chosen. -/
structure Alike (d e : Dashboard) : Prop where
  beside : e = { d with selection := e.selection }
  mem_iff : ∀ f v, v ∈ d.selection.choice f ↔ v ∈ e.selection.choice f

theorem alike_of_mem_iff {picks picks' : List Pick}
    (h : ∀ f v, v ∈ (d.pickAll picks).selection.choice f ↔
      v ∈ (d.pickAll picks').selection.choice f) : (d.pickAll picks).Alike (d.pickAll picks') :=
  ⟨by rw [pickAll_eq picks d, pickAll_eq picks' d], h⟩

/-- Dashboards that are alike stay so through picks. -/
theorem Alike.pickAll (h : d.Alike e) (picks : List Pick) :
    (d.pickAll picks).Alike (e.pickAll picks) := by
  refine ⟨?_, fun f v => ?_⟩
  · rw [pickAll_eq picks d, pickAll_eq picks e, h.beside]
  · rw [mem_choice_pickAll, mem_choice_pickAll]
    cases Pick.lastSelected? f picks with
    | some values => rfl
    | none =>
      have hv : v ∈ (d.selection.choice f).values ↔ v ∈ (e.selection.choice f).values :=
        h.mem_iff f v
      simp only [Option.getD_none, hv]

theorem accepts_congr {c c' : Choice} (h : ∀ v, v ∈ c ↔ v ∈ c') (v : String) :
    c.accepts v = c'.accepts v := by
  have hempty : c.values = [] ↔ c'.values = [] := by
    simp only [List.eq_nil_iff_forall_not_mem]
    exact forall_congr' fun w => not_congr (h w)
  rw [Bool.eq_iff_iff]
  simp only [Choice.accepts, Bool.or_eq_true, List.isEmpty_iff, decide_eq_true_eq, hempty, h v]

/-- The order of a choice does not show. -/
theorem Alike.view_eq (h : d.Alike e) : d.view = e.view := by
  have hrows : e.rows = d.rows := by rw [h.beside]
  have haccepts : d.selection.accepts = e.selection.accepts := by
    funext r
    exact congrArg₂ and (accepts_congr (h.mem_iff .apiKey) _) (accepts_congr (h.mem_iff .model) _)
  rw [view, view, hrows, View.ofRows, View.ofRows, Selection.report, Selection.report, haccepts]

/-- Toggles can be made in another order. -/
theorem alike_of_swap (d : Dashboard) (f g : Facet) (v w : String) :
    (d.pickAll [.toggle f v, .toggle g w]).Alike (d.pickAll [.toggle g w, .toggle f v]) := by
  refine alike_of_mem_iff fun h u => ?_
  simp only [pickAll_cons, pickAll_nil, mem_choice_pick, Pick.selected?, xor_iff_iff_not]
  tauto

/-- A toggle made twice is none. -/
theorem alike_of_twice (d : Dashboard) (f : Facet) (v : String) :
    (d.pickAll [.toggle f v, .toggle f v]).Alike (d.pickAll []) := by
  refine alike_of_mem_iff fun h u => ?_
  simp only [pickAll_cons, pickAll_nil, mem_choice_pick, Pick.selected?, xor_iff_iff_not]
  tauto

/-- The last toggle takes out the one key that is left, and then all keys show. -/
example (d : Dashboard) :
    let picks : List Pick :=
      [.toggle .apiKey "k1", .select .apiKey ["k2"], .toggle .model "m", .toggle .apiKey "k2"]
    (d.pickAll picks).selection.apiKeys = .all := rfl

end Dashboard

end CacheActivity
