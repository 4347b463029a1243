import CacheActivity.Proofs.DashboardRun

/-!
# What a run of a dashboard leaves behind

Rows go on display where a refresh fetches them, or where they come with a ticket that is not out of
date (`update?`), so what is on display is the last of these (`rows_runAll`). The source is asked at
each refresh, for the window in force then, and at nothing else (`source_runAll`). Rows that come
with a ticket handed out before come with the latest one if they are taken at all, so the tickets of
what goes on display never decrease (`pairwise_updates`).
-/

namespace CacheActivity

open Calendar (Window)
open Usage (Row Selection View)

namespace Operation

/-- The window in force at each refresh, where the first one is in force before. -/
def refreshWindows : Window → List Operation → List Window
  | _, [] => []
  | _, setWindow w :: ops => refreshWindows w ops
  | w, refresh :: ops => w :: refreshWindows w ops
  | w, _ :: ops => refreshWindows w ops

variable {σ : Type} (source : Source σ)

/-- The rows that an operation puts on display, with their ticket. -/
def update? : Operation → σ × Dashboard → Option (Ticket × List Row)
  | refresh, (s, d) => (source d.window s).1.toOption.map fun rows => (d.request.1, rows)
  | receive ticket rows, (_, d) => if d.Accepts ticket then some (ticket, rows) else none
  | _, _ => none

theorem rows_run (o : Operation) (x : σ × Dashboard) :
    (o.run source x).2.rows = ((o.update? source x).map Prod.snd).getD x.2.rows := by
  obtain ⟨s, d⟩ := x
  cases o with
  | refresh =>
    rw [run_refresh, update?, Option.map_map]
    cases (source d.window s).1.toOption <;> rfl
  | receive ticket rows =>
    rw [run_receive, update?]
    split <;> rfl
  | _ => rfl

theorem latest_le_run (o : Operation) (x : σ × Dashboard) :
    x.2.latest ≤ (o.run source x).2.latest := by
  rw [latest_run, Ticket.le_def]
  split <;> simp

/-- What goes on display has the latest ticket, unless it came with one that was not handed out. -/
theorem ticket_of_update? {o : Operation} {x : σ × Dashboard} {u : Ticket × List Row}
    (hu : o.update? source x = some u)
    (ho : ∀ ticket rows, o = .receive ticket rows → ticket ≤ x.2.latest) :
    u.1.number = (o.run source x).2.latest.number := by
  cases o with
  | refresh =>
    obtain ⟨rows, -, rfl⟩ := Option.map_eq_some_iff.1 hu
    rw [latest_run, if_pos (show refresh.Asks from trivial)]
    rfl
  | receive ticket rows =>
    have hle := ho ticket rows rfl
    rw [latest_run, if_neg (show ¬(receive ticket rows).Asks from id)]
    simp only [update?, Option.ite_none_right_eq_some, Option.some_inj] at hu
    obtain ⟨haccepts, rfl⟩ := hu
    exact Nat.le_antisymm hle haccepts
  | _ => cases hu

end Operation

/-- The state of a source that was asked for some windows, one after the other. -/
def Source.askedFor {σ : Type} (source : Source σ) (ws : List Window) (s : σ) : σ :=
  ws.foldl (fun s w => (source w s).2) s

namespace Dashboard

open Operation (refreshWindows)

variable {σ : Type} (source : Source σ)

/-- All that a run puts on display, in order. -/
def updates : List Operation → σ × Dashboard → List (Ticket × List Row)
  | [], _ => []
  | o :: ops, x => (o.update? source x).toList ++ updates ops (o.run source x)

/-- That rows come only with tickets that were handed out before. -/
def Genuine (ops : List Operation) (x : σ × Dashboard) : Prop :=
  ∀ before ticket rows after, ops = before ++ .receive ticket rows :: after →
    ticket ∈ tickets source before x

theorem rows_runAll (ops : List Operation) (x : σ × Dashboard) :
    (runAll source ops x).2.rows =
      ((updates source ops x).getLast?.map Prod.snd).getD x.2.rows := by
  induction ops generalizing x with
  | nil => rfl
  | cons o ops ih =>
    rw [runAll_cons, ih, updates, List.getLast?_append, Operation.rows_run]
    cases (updates source ops (o.run source x)).getLast? with
    | some u => rfl
    | none => cases o.update? source x <;> rfl

/-- The source is asked at each refresh and at nothing else. -/
theorem source_runAll (ops : List Operation) (x : σ × Dashboard) :
    (runAll source ops x).1 = source.askedFor (refreshWindows x.2.window ops) x.1 := by
  induction ops generalizing x with
  | nil => rfl
  | cons o ops ih =>
    obtain ⟨s, d⟩ := x
    rw [runAll_cons, ih]
    cases o with
    | refresh =>
      rw [Operation.run_refresh]
      rfl
    | receive ticket rows =>
      rw [Operation.run_receive]
      rfl
    | _ => rfl

/-- No ticket on the way is ahead of the run. -/
def NoneAhead (ops : List Operation) (x : σ × Dashboard) : Prop :=
  ∀ before ticket rows after, ops = before ++ .receive ticket rows :: after →
    ticket ≤ (runAll source before x).2.latest

variable {source}

theorem Genuine.noneAhead {ops : List Operation} {x : σ × Dashboard} (h : Genuine source ops x) :
    NoneAhead source ops x :=
  fun before ticket rows after hops => (mem_tickets source (h before ticket rows after hops)).2

theorem NoneAhead.tail {o : Operation} {ops : List Operation} {x : σ × Dashboard}
    (h : NoneAhead source (o :: ops) x) : NoneAhead source ops (o.run source x) :=
  fun before ticket rows after hops => h (o :: before) ticket rows after (by rw [hops]; rfl)

theorem NoneAhead.head {o : Operation} {ops : List Operation} {x : σ × Dashboard}
    (h : NoneAhead source (o :: ops) x) (ticket : Ticket) (rows : List Row)
    (ho : o = .receive ticket rows) : ticket ≤ x.2.latest :=
  h [] ticket rows ops (by rw [ho]; rfl)

theorem latest_le_updates {ops : List Operation} {x : σ × Dashboard}
    (h : NoneAhead source ops x) : ∀ u ∈ updates source ops x, x.2.latest ≤ u.1 := by
  induction ops generalizing x with
  | nil => exact fun u hu => absurd hu List.not_mem_nil
  | cons o ops ih =>
    intro u hu
    have hle := Operation.latest_le_run source o x
    rcases List.mem_append.1 hu with hu | hu
    · have ht := Operation.ticket_of_update? source (Option.mem_toList.1 hu) h.head
      exact Nat.le_trans hle (Nat.le_of_eq ht.symm)
    · exact Nat.le_trans hle (ih h.tail u hu)

theorem pairwise_updates {ops : List Operation} {x : σ × Dashboard}
    (h : NoneAhead source ops x) : (updates source ops x).Pairwise fun u v => u.1 ≤ v.1 := by
  induction ops generalizing x with
  | nil => exact List.Pairwise.nil
  | cons o ops ih =>
    rw [updates, List.pairwise_append]
    refine ⟨?_, ih h.tail, fun u hu v hv => ?_⟩
    · cases o.update? source x with
      | none => exact List.Pairwise.nil
      | some u => exact List.pairwise_singleton _ _
    · have ht := Operation.ticket_of_update? source (Option.mem_toList.1 hu) h.head
      exact Nat.le_trans (Nat.le_of_eq ht) (latest_le_updates h.tail v hv)

/-- A run shows the rows of its last update, and the tickets of its updates never decrease. Its
source is asked once at each refresh and at nothing else, each time for the window in force alone. A
refresh whose fetch fails gives the fault and changes nothing on display, but no earlier ticket is
good any more. A refresh whose fetch succeeds always shows its rows. -/
theorem run_asks_at_refreshes (source : Source σ) (s : σ) (window : Window) (selection : Selection)
    (ops : List Operation) :
    let start := (s, Dashboard.start window selection)
    let now := (runAll source ops start).1
    let d := (runAll source ops start).2
    let asked := { d with latest := d.latest.next }
    d.rows = ((updates source ops start).getLast?.map Prod.snd).getD [] ∧
      (Genuine source ops start → (updates source ops start).Pairwise fun u v => u.1 ≤ v.1) ∧
      now = source.askedFor (refreshWindows window ops) s ∧ d.view = .ofRows d.selection d.rows ∧
      (∀ other : Source σ, other d.window now = source d.window now →
        d.refresh other now = d.refresh source now) ∧
      (∀ fault later, source d.window now = (.error fault, later) →
        d.refresh source now = (.error fault, later, asked) ∧ asked.view = d.view ∧
          ∀ t ∈ tickets source ops start, ¬asked.Accepts t) ∧
      ∀ rows later, source d.window now = (.ok rows, later) →
        d.refresh source now = (.ok true, later, { asked with rows }) := by
  intro start now d asked
  refine ⟨rows_runAll source ops start, fun h => pairwise_updates h.noneAhead,
    source_runAll source ops start, rfl, fun other hother => ?_,
    fun fault later hfault => ⟨?_, rfl, fun t ht => ?_⟩, fun rows later hrows => ?_⟩
  · rw [refresh_eq, refresh_eq, hother]
  · rw [refresh_eq, hfault]
  · have hle : t.number ≤ d.latest.number := (mem_tickets source ht).2
    show ¬d.latest.number + 1 ≤ t.number
    omega
  · rw [refresh_eq, hrows]

/-- A source that notes the windows it is asked for, and gives no rows but the first time. -/
def onceOnly : Source (List Window) := fun w asked =>
  (if asked = [] then .ok [Row.empty] else .error (.noData "captures"), asked ++ [w])

/-- The first refresh shows the rows of its window, rows that come in time are shown instead, and
the next refresh fails. -/
theorem run_asks_at_refreshes_of_failed_refresh :
    let june (day : Nat) (h : 1 ≤ day ∧ day ≤ 30) : Window :=
      let date : Calendar.Date := ⟨2024, 6, day, by decide, by decide, h⟩
      ⟨date, date, Int.le_refl _⟩
    let start := ([], Dashboard.start (june 1 (by decide)) .all)
    let w := june 2 (by decide)
    let t : Ticket := ⟨2⟩
    let ops : List Operation :=
      [.refresh, .setWindow w, .receive t [Row.empty, Row.empty], .toggleModel "m1"]
    let now := (runAll onceOnly ops start).1
    let d := (runAll onceOnly ops start).2
    Genuine onceOnly ops start ∧ (updates onceOnly ops start).Pairwise (fun u v => u.1 ≤ v.1) ∧
      d.rows = [Row.empty, Row.empty] ∧ now = [june 1 (by decide)] ∧
      d.refresh onceOnly now =
        (.error (.noData "captures"), [june 1 (by decide), w], { d with latest := ⟨3⟩ }) ∧
      ¬({ d with latest := ⟨3⟩ } : Dashboard).Accepts t := by
  intro june start w t ops now d
  have hgenuine : Genuine onceOnly ops start := by
    intro before ticket rows after hops
    obtain ⟨_, rfl, _, rfl, rfl, ⟨rfl, -⟩, -⟩ :
        ∃ behind, before = .refresh :: behind ∧ ∃ between, behind = .setWindow w :: between ∧
          between = [] ∧ (ticket = t ∧ rows = [Row.empty, Row.empty]) ∧
            after = [.toggleModel "m1"] := by
      simpa [ops, List.cons_eq_append_iff] using hops
    exact List.mem_cons_of_mem _ List.mem_cons_self
  obtain ⟨hrows, hupdates, hnow, -, -, hfail, -⟩ :=
    run_asks_at_refreshes onceOnly [] (june 1 (by decide)) .all ops
  obtain ⟨hfailed, -, hstale⟩ := hfail (.noData "captures") [june 1 (by decide), w] rfl
  exact ⟨hgenuine, hupdates hgenuine, hrows, hnow, hfailed,
    hstale t (List.mem_cons_of_mem _ List.mem_cons_self)⟩

end Dashboard

end CacheActivity
