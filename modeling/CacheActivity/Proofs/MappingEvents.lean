import CacheActivity.Proofs.FlatMappings

/-!
# Events of a mapping

The tokens of a mapping whose members are scalars give the events of its keys and values, none of
them with an anchor or a tag (`Emit.ofTokens_mapping`). So a text of such lines is read whole, as
one document (`Document.read_entries`).
-/

namespace CacheActivity.Yaml

namespace Emit

section Runs

variable {α β : Type} {a b c : Ahead}

/-- That a value comes out, with some events and some tokens left. -/
def Gives (x : Emit α) (a : Ahead) (v : α) (b : Ahead) (es : List Event) : Prop :=
  ∀ before, ((x.run a).run).run before = (.ok (v, b), es.reverse ++ before)

theorem Gives.pure (v : α) (a : Ahead) : Gives (Pure.pure v) a v a [] := fun _ => rfl

theorem Gives.bind {x : Emit α} {f : α → Emit β} {v : α} {w : β} {es es' : List Event}
    (h : Gives x a v b es) (h' : Gives (f v) b w c es') : Gives (x >>= f) a w c (es ++ es') := by
  intro before
  rw [StateT.run_bind, ExceptT.run_bind, StateT.run_bind, h before, List.reverse_append,
    List.append_assoc]
  exact h' _

theorem Gives.event (e : Event) (a : Ahead) : Gives (Emit.event e) a () a [e] := fun _ => rfl

theorem Gives.peek (t : Token) (ts : List Token) (last : SyntaxError) :
    Gives Emit.peek ⟨t :: ts, last⟩ t ⟨t :: ts, last⟩ [] := fun _ => rfl

theorem Gives.skip (t : Token) (ts : List Token) (last : SyntaxError) :
    Gives Emit.skip ⟨t :: ts, last⟩ () ⟨ts, last⟩ [] := fun _ => rfl

end Runs

section Members

variable (handles : Handles) (last : SyntaxError)

theorem gives_scalar (fuel : Nat) (block inMapping : Bool) {t : Token} {style : Style}
    {text : List Char} (ht : t.kind = .scalar style text) (ts : List Token) :
    Gives (node handles (fuel + 1) block inMapping) ⟨t :: ts, last⟩ () ⟨ts, last⟩
      [⟨.scalar style text, none, none, t.start⟩] := by
  obtain ⟨kind, start, finish⟩ := t
  subst ht
  intro before
  rw [node]
  rfl

theorem gives_value {v y : Token} {style : Style} {text : List Char} (hv : v.kind = .value)
    (hy : y.kind = .scalar style text) (fuel : Nat) (ts : List Token) :
    Gives (blockValue handles (fuel + 2)) ⟨v :: y :: ts, last⟩ () ⟨ts, last⟩
      [⟨.scalar style text, none, none, y.start⟩] := by
  have hnode := gives_scalar handles last fuel true true hy ts
  obtain ⟨_, _, _⟩ := v
  obtain ⟨_, _, _⟩ := y
  subst hv hy
  rw [blockValue]
  exact .bind (.peek _ _ _) (.bind (.skip _ _ _) (.bind (.peek _ _ _) hnode))

theorem Gives.member {b : Ahead} {es : List Event} {fuel : Nat} {since : Mark} {ts : List Token}
    (h : Gives (blockMembers handles (fuel + 2) since) ⟨ts, last⟩ () b es) {k x v y : Token}
    {key text : List Char} {style : Style} (hk : k.kind = .key) (hx : x.kind = .scalar .plain key)
    (hv : v.kind = .value) (hy : y.kind = .scalar style text) :
    Gives (blockMembers handles (fuel + 3) since) ⟨k :: x :: v :: y :: ts, last⟩ () b
      (⟨.scalar .plain key, none, none, x.start⟩ :: ⟨.scalar style text, none, none, y.start⟩ ::
        es) := by
  have hnode := gives_scalar handles last (fuel + 1) true true hx (v :: y :: ts)
  have hvalue := gives_value handles last hv hy fuel ts
  obtain ⟨_, _, _⟩ := k
  obtain ⟨_, _, _⟩ := x
  subst hk hx
  rw [blockMembers]
  exact .bind (.peek _ _ _) (.bind (.skip _ _ _) (.bind (.peek _ _ _)
    (.bind hnode (.bind hvalue h))))

end Members

/-- That an event is of a kind, and has no anchor and no tag. -/
def IsBare (e : Event) (kind : EventKind) : Prop := ∃ m, e = ⟨kind, none, none, m⟩

end Emit

def Scan.Entry.eventKinds (e : Scan.Entry) : List EventKind :=
  [.scalar .plain e.key, .scalar e.value.style e.value.text]

namespace Emit

open Scan (Entry)

variable (handles : Handles) (last : SyntaxError)

theorem gives_members (since : Mark) (n : Nat) (es : List Entry) {ts : List Token}
    (hts : ts.map Token.kind = es.flatMap Entry.kinds ++ [.blockEnd, .streamEnd]) :
    ∃ events u, u.kind = .streamEnd ∧
      Gives (blockMembers handles (es.length + n + 3) since) ⟨ts, last⟩ () ⟨[u], last⟩ events ∧
      List.Forall₂ IsBare events (es.flatMap Entry.eventKinds ++ [.mappingEnd]) := by
  induction es generalizing ts with
  | nil =>
    obtain ⟨t, ts, rfl, ht, hts⟩ := List.map_eq_cons_iff.1 hts
    obtain ⟨u, ts, rfl, hu, hts⟩ := List.map_eq_cons_iff.1 hts
    obtain rfl := List.map_eq_nil_iff.1 hts
    obtain ⟨_, start, _⟩ := t
    subst ht
    refine ⟨[⟨.mappingEnd, none, none, start⟩], u, hu, ?_, .cons ⟨_, rfl⟩ .nil⟩
    rw [blockMembers]
    exact .bind (.peek _ _ _) (.bind (.event _ _) (.skip _ _ _))
  | cons e es ih =>
    obtain ⟨k, ts, rfl, hk, hts⟩ := List.map_eq_cons_iff.1 hts
    obtain ⟨x, ts, rfl, hx, hts⟩ := List.map_eq_cons_iff.1 hts
    obtain ⟨v, ts, rfl, hv, hts⟩ := List.map_eq_cons_iff.1 hts
    obtain ⟨y, ts, rfl, hy, hts⟩ := List.map_eq_cons_iff.1 hts
    obtain ⟨events, u, hu, hgives, hbare⟩ := ih hts
    have hfuel : (e :: es).length + n + 3 = es.length + n + 1 + 3 := by
      rw [List.length_cons]
      omega
    rw [hfuel]
    exact ⟨_, u, hu, hgives.member handles last hk hx hv hy,
      .cons ⟨_, rfl⟩ (.cons ⟨_, rfl⟩ hbare)⟩

theorem gives_document {t u : Token} {ts : List Token} {fuel : Nat} {events : List Event}
    (ht : t.kind = .blockMappingStart)
    (h : Gives (blockMembers commonHandles fuel t.start) ⟨ts, last⟩ () ⟨[u], last⟩ events) :
    Gives (document (fuel + 1)) ⟨t :: ts, last⟩ true ⟨[u], last⟩
      (⟨.mappingStart, none, none, t.start⟩ :: events) := by
  obtain ⟨_, start, finish⟩ := t
  subst ht
  have hnode : Gives (node commonHandles (fuel + 1) true false)
      ⟨⟨.blockMappingStart, start, finish⟩ :: ts, last⟩ () ⟨[u], last⟩
      (⟨.mappingStart, none, none, start⟩ :: events) := by
    have hproperties : Gives (properties 2 ⟨none, none, none⟩)
        ⟨⟨.blockMappingStart, start, finish⟩ :: ts, last⟩ ⟨none, none, none⟩
        ⟨⟨.blockMappingStart, start, finish⟩ :: ts, last⟩ [] := fun _ => rfl
    rw [node]
    exact .bind (.peek _ _ _) (.bind hproperties (.bind (.peek _ _ _) (.bind (.pure _ _)
      (.bind (.event _ _) (.bind (.skip _ _ _) h)))))
  have hend : Gives (do let _ ← peek; return true) ⟨[u], last⟩ true ⟨[u], last⟩ [] :=
    .bind (.peek _ _ _) (.pure _ _)
  have hevents := Gives.bind (f := fun _ => do let _ ← peek; return true) hnode hend
  rw [List.append_nil] at hevents
  exact .bind (.peek _ _ _) hevents

theorem gives_isLast {u : Token} (hu : u.kind = .streamEnd) (fuel : Nat) :
    Gives (isLast (fuel + 1)) ⟨[u], last⟩ true ⟨[u], last⟩ [] := by
  obtain ⟨_, _, _⟩ := u
  subst hu
  exact fun _ => rfl

/-- The tokens of a mapping give one document. -/
theorem ofTokens_mapping (es : List Entry) {ts : List Token}
    (hts : ts.map Token.kind = .blockMappingStart :: es.flatMap Entry.kinds ++
      [.blockEnd, .streamEnd]) :
    ∃ events, Document.ofTokens ts last = ⟨events, none, false⟩ ∧
      List.Forall₂ IsBare events (.mappingStart :: es.flatMap Entry.eventKinds ++
        [.mappingEnd]) := by
  obtain ⟨t, ts, rfl, ht, hts⟩ := List.map_eq_cons_iff.1 hts
  have hlen : es.length ≤ ts.length := by
    have hkinds := length_le_flatMap (f := Entry.kinds) (fun _ => List.cons_ne_nil _ _) es
    have hmap : ts.length = (es.flatMap Entry.kinds ++
        [TokenKind.blockEnd, TokenKind.streamEnd]).length := by
      rw [← List.length_map (f := Token.kind)]
      exact congrArg List.length hts
    rw [List.length_append] at hmap
    omega
  obtain ⟨n, hn⟩ : ∃ n, 4 * (t :: ts).length + 8 = es.length + n + 3 + 1 :=
    ⟨4 * (t :: ts).length + 4 - es.length, by simp only [List.length_cons]; omega⟩
  obtain ⟨events, u, hu, hgives, hbare⟩ := gives_members commonHandles last t.start n es hts
  refine ⟨⟨.mappingStart, none, none, t.start⟩ :: events, ?_, .cons ⟨_, rfl⟩ hbare⟩
  have hdocument := gives_document last ht hgives []
  have hlast := gives_isLast last hu (es.length + n + 3) []
  rw [← hn] at hdocument hlast
  simp only [Document.ofTokens]
  rw [hdocument]
  simp only [hlast]
  simp

end Emit

namespace Document

theorem badPlace?_eq_none {cs : List Char} (h : ∀ c ∈ cs, isAllowed c = true)
    (chunk offset : Nat) : badPlace? chunk offset cs = none := by
  induction cs generalizing chunk offset with
  | nil => rfl
  | cons c cs ih =>
    obtain ⟨hc, hcs⟩ := List.forall_mem_cons.1 h
    simp [badPlace?, hc, ih hcs]

theorem cutUnknown_eq {events : List Event} (h : ∀ e ∈ events, isKnown events e = true)
    (fault : Option SyntaxError) (more : Bool) :
    cutUnknown ⟨events, fault, more⟩ = ⟨events, fault, more⟩ := by
  have hnone : events.find? (!isKnown events ·) = none := by
    simpa using h
  simp [cutUnknown, hnone]

theorem isAllowed_of_isPrintable {c : Char} (h : isPrintable c = true) : isAllowed c = true := by
  simp [isPrintable, isAllowed] at h ⊢
  omega

theorem isAllowed_line (e : Scan.Entry) : ∀ c ∈ e.line, isAllowed c = true := by
  have hkey (c : Char) (hc : c ∈ e.key) : isPrintable c = true :=
    isPrintable_of_isWord (e.isKey.word c hc)
  have hprint : ∀ c ∈ e.line, isPrintable c = true :=
    List.forall_mem_append.2 ⟨hkey, List.forall_mem_cons.2
      ⟨rfl, List.forall_mem_cons.2 ⟨rfl, e.value.printable⟩⟩⟩
  exact fun c hc => isAllowed_of_isPrintable (hprint c hc)

open Emit (IsBare)
open Scan (Entry)

theorem isKnown_of_isBare {events : List Event} {kinds : List EventKind}
    (h : List.Forall₂ IsBare events kinds) (halias : ∀ k ∈ kinds, ∀ name, k ≠ .alias name)
    (known : List Event) : ∀ e ∈ events, isKnown known e = true := by
  induction h with
  | nil => exact List.forall_mem_nil _
  | @cons e k es ks he _ ih =>
    obtain ⟨hk, hks⟩ := List.forall_mem_cons.1 halias
    obtain ⟨m, rfl⟩ := he
    refine List.forall_mem_cons.2 ⟨?_, ih hks⟩
    unfold isKnown
    split
    · rename_i name heq
      exact absurd heq (hk name)
    · rfl

/-- A text that is a mapping is one document. -/
theorem read_entries (e : Entry) (es : List Entry) :
    ∃ events, read ((e :: es).flatMap Entry.line) = ⟨events, none, false⟩ ∧
      List.Forall₂ IsBare events (.mappingStart :: (e :: es).flatMap Entry.eventKinds ++
        [.mappingEnd]) := by
  obtain ⟨ts, hts, htokens⟩ := Scan.tokens_entries e es
  obtain ⟨events, hevents, hbare⟩ :=
    Emit.ofTokens_mapping ⟨.endOfStream, .mark .start, none⟩ (e :: es) hts
  have hallowed : ∀ c ∈ (e :: es).flatMap Entry.line, isAllowed c = true := by
    intro c hc
    obtain ⟨x, -, hx⟩ := List.mem_flatMap.1 hc
    exact isAllowed_line x c hx
  have halias : ∀ k ∈ EventKind.mappingStart :: (e :: es).flatMap Entry.eventKinds ++
      [.mappingEnd], ∀ name, k ≠ .alias name := by
    rintro k hk name rfl
    simp [Entry.eventKinds] at hk
  refine ⟨events, ?_, hbare⟩
  simp only [read, badPlace?_eq_none hallowed, htokens, Option.getD_none, hevents]
  exact cutUnknown_eq (isKnown_of_isBare hbare halias events) none false

end Document

end CacheActivity.Yaml
