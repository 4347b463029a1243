import CacheActivity.Command.Invocation
import CacheActivity.Proofs.Attempts
import Mathlib.Data.List.TakeWhile

/-!
# Switches that were given

A switch that is known by its name alone has one spelling, two dashes and the name, and nothing else
can be read as it: no letter, no operand of another flag. So it was given just when that word is
among the words that were read (`gives_of_readFlags`), in front of a command where none of the
flags has the name and behind it where one has.
-/

namespace CacheActivity.Command

variable {flags : List Flag} {f : Flag} {g g' : Given} {r : Reading} {name operand n w : String}
  {operand? : Option String} {cs : List Char} {words rest front : List String}

theorem add_eq_ok (h : g.add f operand = .ok g') : g' = g ++ [(f.name, operand)] := by
  unfold Given.add at h
  split at h
  · cases h
  · exact (Except.ok.inj h).symm
  all_goals
    split at h
    · cases h
    · exact (Except.ok.inj h).symm

theorem has_iff_of_add (h : g.add f operand = .ok g') :
    g'.has name = true ↔ g.has name = true ∨ f.name = name := by
  rw [add_eq_ok h]
  simp [Given.has]

theorem has_of_add (h : g.add f operand = .ok g') (hname : f.name ≠ name) :
    g'.has name = g.has name := by
  rw [Bool.eq_iff_iff, has_iff_of_add h, or_iff_left hname]

/-- That a text can be the whole of a word behind its two dashes. -/
structure Bare (name : String) : Prop where
  nonempty : name.toList ≠ []
  unequal : '=' ∉ name.toList

theorem ofChars_bare (h : Bare name) :
    Word.ofChars ("--" ++ name).toList = .name name none := by
  have hall : ∀ c ∈ name.toList, decide (c ≠ '=') = true := fun c hc =>
    decide_eq_true fun heq => h.unequal (heq ▸ hc)
  have hword : ("--" ++ name).toList = '-' :: '-' :: name.toList := by simp
  rw [hword, Word.ofChars.eq_2 _ h.nonempty, List.takeWhile_eq_self_iff.2 hall,
    List.dropWhile_eq_nil_iff.2 hall, String.ofList_toList]

theorem eq_of_ofChars (h : Word.ofChars w.toList = .name name none) : w = "--" ++ name := by
  unfold Word.ofChars at h
  split at h
  · cases h
  · rename_i cs _ hw
    injection h with hname hoperand
    have hnil : cs.dropWhile (· ≠ '=') = [] := by
      split at hoperand
      · assumption
      · cases hoperand
    have hcs := List.takeWhile_append_dropWhile (p := (· ≠ '=')) (l := cs)
    rw [hnil, List.append_nil] at hcs
    rw [← String.toList_inj, hw, ← hname, hcs]
    simp
  · cases h
  · cases h

/-- That flags with a name are switches without a letter. -/
def SwitchOnly (flags : List Flag) (name : String) : Prop :=
  ∀ f ∈ flags, f.name = name → f.kind = .switch ∧ f.letter = none

instance (flags : List Flag) (name : String) : Decidable (SwitchOnly flags name) :=
  inferInstanceAs (Decidable (∀ f ∈ flags, f.name = name → f.kind = .switch ∧ f.letter = none))

/-- That the flag that waits for its operand, if there is one, is none with that name. -/
def Reading.Passes (r : Reading) (flags : List Flag) (name : String) : Prop :=
  ∀ f, r.waiting = some f → f ∈ flags ∧ f.name ≠ name

theorem SwitchOnly.ne_of_takesOperand (h : SwitchOnly flags name) (hf : f ∈ flags)
    (hoperand : f.kind.takesOperand = true) : f.name ≠ name := by
  intro hname
  rw [(h f hf hname).1] at hoperand
  cases hoperand

/-- What words do to the flags that were given: the switch is among them behind the words if its
word is one of these, and it cannot be one where no flag has the name. -/
structure Gives (flags : List Flag) (name : String) (g : Given) (front : List String)
    (g' : Given) : Prop where
  has_iff : g'.has name = true ↔ g.has name = true ∨ "--" ++ name ∈ front
  named : "--" ++ name ∈ front → ∃ f ∈ flags, f.name = name

theorem Gives.nil (g : Given) : Gives flags name g [] g := ⟨by simp, by simp⟩

theorem Gives.other (hw : "--" ++ name ≠ w) (h : g'.has name = g.has name) :
    Gives flags name g [w] g' := ⟨by simp [h, hw], by simp [hw]⟩

theorem Gives.cons {g'' : Given} (hw : Gives flags name g [w] g')
    (hfront : Gives flags name g' front g'') : Gives flags name g (w :: front) g'' where
  has_iff := by
    rw [hfront.has_iff, hw.has_iff, or_assoc, List.mem_singleton, List.mem_cons]
  named hmem := by
    rcases List.mem_cons.1 hmem with rfl | hmem
    · exact hw.named (List.mem_singleton.2 rfl)
    · exact hfront.named hmem

theorem has_of_readLetters (h : SwitchOnly flags name)
    (hread : Reading.readLetters flags cs g = .ok r) :
    r.given.has name = g.has name ∧ r.Passes flags name := by
  induction cs generalizing g with
  | nil =>
    cases hread
    exact ⟨rfl, by rintro f ⟨⟩⟩
  | cons c cs ih =>
    rw [Reading.readLetters] at hread
    split at hread
    · cases hread
    · rename_i f hfind
      have hf := List.mem_of_find?_eq_some hfind
      -- A flag that was found by a letter is not the switch.
      have hname : f.name ≠ name := by
        intro hname
        have hletter := List.find?_some hfind
        rw [(h f hf hname).2] at hletter
        cases hletter
      split at hread
      · split at hread
        · cases hread
          exact ⟨rfl, by rintro f ⟨⟩; exact ⟨hf, hname⟩⟩
        · obtain ⟨g', hg, hr⟩ := bind_eq_ok hread
          cases hr
          exact ⟨has_of_add hg hname, by rintro f ⟨⟩⟩
      · obtain ⟨g', hg, hr⟩ := bind_eq_ok hread
        obtain ⟨hhas, hpasses⟩ := ih hr
        exact ⟨hhas.trans (has_of_add hg hname), hpasses⟩

theorem has_of_readName (h : SwitchOnly flags name)
    (hread : Reading.readName flags n operand? g = .ok r) :
    (r.given.has name = true ↔ g.has name = true ∨ n = name ∧ operand? = none) ∧
      r.Passes flags name ∧ ∃ f ∈ flags, f.name = n := by
  unfold Reading.readName at hread
  cases hfind : flags.find? (·.name = n) with
  | none =>
    rw [hfind] at hread
    cases hread
  | some f =>
    rw [hfind] at hread
    have hf := List.mem_of_find?_eq_some hfind
    obtain rfl : f.name = n := by simpa using List.find?_some hfind
    cases operand? with
    | none =>
      simp only at hread
      split at hread
      · rename_i hoperand
        have hname := h.ne_of_takesOperand hf hoperand
        cases hread
        exact ⟨by simp [hname], by rintro f' ⟨⟩; exact ⟨hf, hname⟩, f, hf, rfl⟩
      · obtain ⟨g', hg, hr⟩ := bind_eq_ok hread
        cases hr
        exact ⟨by simp [has_iff_of_add hg], by rintro f' ⟨⟩, f, hf, rfl⟩
    | some operand =>
      simp only at hread
      split at hread
      · rename_i hoperand
        have hname := h.ne_of_takesOperand hf hoperand
        obtain ⟨g', hg, hr⟩ := bind_eq_ok hread
        cases hr
        exact ⟨by simp [has_of_add hg hname], by rintro f' ⟨⟩, f, hf, rfl⟩
      · cases hread

theorem gives_of_readName (hbare : Bare name) (h : SwitchOnly flags name)
    (hw : Word.ofChars w.toList = .name n operand?)
    (hread : Reading.readName flags n operand? g = .ok r) :
    Gives flags name g [w] r.given ∧ r.Passes flags name := by
  obtain ⟨hhas, hpasses, hnamed⟩ := has_of_readName h hread
  have hspelled : (n = name ∧ operand? = none) ↔ "--" ++ name = w := by
    constructor
    · rintro ⟨rfl, rfl⟩
      exact (eq_of_ofChars hw).symm
    · rintro rfl
      rw [ofChars_bare hbare] at hw
      cases hw
      exact ⟨rfl, rfl⟩
  rw [hspelled] at hhas
  refine ⟨⟨by rw [hhas, List.mem_singleton], fun hmem => ?_⟩, hpasses⟩
  rw [← (hspelled.2 (List.mem_singleton.1 hmem)).1]
  exact hnamed

theorem gives_of_readFlags (hbare : Bare name) (h : SwitchOnly flags name)
    (hpasses : r.Passes flags name)
    (hread : Reading.readFlags flags r words = .ok (g, rest)) :
    ∃ front, words = front ++ rest ∧ Gives flags name r.given front g := by
  induction words generalizing r with
  | nil =>
    rw [Reading.readFlags] at hread
    split at hread
    · cases hread
      exact ⟨[], rfl, .nil _⟩
    · cases hread
  | cons w words ih =>
    have hother (hw : Word.ofChars w.toList ≠ .name name none) : "--" ++ name ≠ w := by
      rintro rfl
      exact hw (ofChars_bare hbare)
    have step {r' : Reading} (hw : Gives flags name r.given [w] r'.given)
        (hpasses' : r'.Passes flags name)
        (hread' : Reading.readFlags flags r' words = .ok (g, rest)) :
        ∃ front, w :: words = front ++ rest ∧ Gives flags name r.given front g := by
      obtain ⟨front, hfront, hgives⟩ := ih hpasses' hread'
      exact ⟨w :: front, by rw [hfront, List.cons_append], hw.cons hgives⟩
    rw [Reading.readFlags] at hread
    split at hread
    · cases hread
      exact ⟨[], rfl, .nil _⟩
    · rename_i operand f hw hwaiting
      obtain ⟨g', hg, hread'⟩ := bind_eq_ok hread
      have hhas := has_of_add hg (hpasses f hwaiting).2
      exact step (.other (hother (by rw [hw]; rintro ⟨⟩)) hhas) (by rintro f' ⟨⟩) hread'
    · rename_i hw hwaiting
      split at hread
      · rename_i hwords
        cases hread
        exact ⟨[w], by rw [hwords, List.append_nil],
          .other (hother (by rw [hw]; rintro ⟨⟩)) rfl⟩
      · cases hread
    · rename_i n operand? hw hwaiting
      obtain ⟨r', hr, hread'⟩ := bind_eq_ok hread
      obtain ⟨hgives, hpasses'⟩ := gives_of_readName hbare h hw hr
      exact step hgives hpasses' hread'
    · rename_i cs hw hwaiting
      obtain ⟨r', hr, hread'⟩ := bind_eq_ok hread
      obtain ⟨hhas, hpasses'⟩ := has_of_readLetters h hr
      exact step (.other (hother (by rw [hw]; rintro ⟨⟩)) hhas) hpasses' hread'
    · cases hread

end CacheActivity.Command
