import CacheActivity.Dashboard

/-!
# Runs of a dashboard

A run is a list of operations on a dashboard and its source, and rows may arrive in it at any time,
late or twice. An operation either asks for rows, and then takes the next ticket (`latest_run`), or
leaves the latest ticket and the window alone. So the number of the latest ticket counts the
requests of a run (`number_latest_runAll`), and a ticket is the latest one just until something else
asks for rows.
-/

namespace CacheActivity

open Calendar (Window)
open Usage (Row Selection)

inductive Operation where
  | setWindow (window : Window)
  | refresh
  | receive (ticket : Ticket) (rows : List Row)
  | selectApiKeys (keys : List String)
  | selectModels (models : List String)
  | toggleApiKey (key : String)
  | toggleModel (model : String)

namespace Operation

def Asks : Operation → Prop
  | setWindow _ => True
  | refresh => True
  | _ => False

instance : DecidablePred Asks
  | setWindow _ => isTrue trivial
  | refresh => isTrue trivial
  | receive .. => isFalse id
  | selectApiKeys _ => isFalse id
  | selectModels _ => isFalse id
  | toggleApiKey _ => isFalse id
  | toggleModel _ => isFalse id

variable {σ : Type} (source : Source σ)

/-- What an operation makes of the state of a source and a dashboard. -/
def run : Operation → σ × Dashboard → σ × Dashboard
  | setWindow window, (s, d) => (s, (d.setWindow window).2)
  | refresh, (s, d) => (d.refresh source s).2
  | receive ticket rows, (s, d) => (s, (d.receive ticket rows).2)
  | selectApiKeys keys, (s, d) => (s, d.selectApiKeys keys)
  | selectModels models, (s, d) => (s, d.selectModels models)
  | toggleApiKey key, (s, d) => (s, d.toggleApiKey key)
  | toggleModel model, (s, d) => (s, d.toggleModel model)

/-- A refresh asks the source once, and the rows it gives, if any, go on display. -/
theorem run_refresh (s : σ) (d : Dashboard) :
    refresh.run source (s, d) = ((source d.window s).2,
      { d with
        latest := d.latest.next
        rows := (source d.window s).1.toOption.getD d.rows }) := by
  simp only [run, Dashboard.refresh_eq]
  rcases source d.window s with ⟨rows | fault, s'⟩ <;> rfl

theorem run_receive (ticket : Ticket) (rows : List Row) (s : σ) (d : Dashboard) :
    (receive ticket rows).run source (s, d) =
      (s, { d with rows := if d.Accepts ticket then rows else d.rows }) := by
  simp only [run, Dashboard.receive]
  split <;> rfl

/-- Asking takes the next ticket, and nothing else takes one. -/
theorem latest_run (o : Operation) (x : σ × Dashboard) :
    (o.run source x).2.latest = if o.Asks then x.2.latest.next else x.2.latest := by
  obtain ⟨s, d⟩ := x
  cases o with
  | setWindow window => rfl
  | refresh =>
    rw [run_refresh]
    rfl
  | receive ticket rows =>
    rw [run_receive]
    rfl
  | selectApiKeys keys => rfl
  | selectModels models => rfl
  | toggleApiKey key => rfl
  | toggleModel model => rfl

/-- Only moving to another window changes the window. -/
theorem window_run {o : Operation} (h : ¬o.Asks) (x : σ × Dashboard) :
    (o.run source x).2.window = x.2.window := by
  obtain ⟨s, d⟩ := x
  cases o with
  | setWindow window => exact absurd trivial h
  | refresh => exact absurd trivial h
  | receive ticket rows => rw [run_receive]
  | selectApiKeys keys => rfl
  | selectModels models => rfl
  | toggleApiKey key => rfl
  | toggleModel model => rfl

end Operation

namespace Dashboard

variable {σ : Type} (source : Source σ)

def runAll (ops : List Operation) (x : σ × Dashboard) : σ × Dashboard :=
  ops.foldl (fun x o => o.run source x) x

def tickets : List Operation → σ × Dashboard → List Ticket
  | [], _ => []
  | o :: ops, x =>
    if o.Asks then x.2.request.1 :: tickets ops (o.run source x)
    else tickets ops (o.run source x)

theorem runAll_cons (o : Operation) (ops : List Operation) (x : σ × Dashboard) :
    runAll source (o :: ops) x = runAll source ops (o.run source x) := rfl

theorem runAll_append (ops later : List Operation) (x : σ × Dashboard) :
    runAll source (ops ++ later) x = runAll source later (runAll source ops x) :=
  List.foldl_append

/-- The latest ticket counts the requests. -/
theorem number_latest_runAll (ops : List Operation) (x : σ × Dashboard) :
    (runAll source ops x).2.latest.number =
      x.2.latest.number + ops.countP (fun o => o.Asks) := by
  induction ops generalizing x with
  | nil => rfl
  | cons o ops ih =>
    rw [runAll_cons, ih, Operation.latest_run, List.countP_cons]
    by_cases h : o.Asks
    · simp only [h, if_true, Ticket.number_next, decide_true]
      omega
    · simp [h]

theorem window_runAll {ops : List Operation} (h : ∀ o ∈ ops, ¬o.Asks) (x : σ × Dashboard) :
    (runAll source ops x).2.window = x.2.window := by
  induction ops generalizing x with
  | nil => rfl
  | cons o ops ih =>
    rw [runAll_cons, ih fun o' ho' => h o' (List.mem_cons_of_mem o ho'),
      Operation.window_run source (h o List.mem_cons_self)]

theorem length_tickets (ops : List Operation) (x : σ × Dashboard) :
    (tickets source ops x).length = ops.countP fun o => o.Asks := by
  induction ops generalizing x with
  | nil => rfl
  | cons o ops ih =>
    rw [tickets, List.countP_cons]
    by_cases h : o.Asks <;> simp [h, ih]

/-- What a run hands out is newer than what there was, and no newer than what there is then. -/
theorem mem_tickets {ops : List Operation} {x : σ × Dashboard} {t : Ticket}
    (h : t ∈ tickets source ops x) : x.2.latest < t ∧ t ≤ (runAll source ops x).2.latest := by
  induction ops generalizing x with
  | nil => simp [tickets] at h
  | cons o ops ih =>
    rw [tickets] at h
    rw [runAll_cons]
    have hlatest := Operation.latest_run source o x
    split at h
    · rename_i ho
      rw [if_pos ho] at hlatest
      rcases List.mem_cons.1 h with rfl | h
      · have hcount := number_latest_runAll source ops (o.run source x)
        rw [hlatest] at hcount
        simp only [request, Ticket.lt_def, Ticket.le_def, Ticket.number_next] at hcount ⊢
        omega
      · have ht := ih h
        rw [hlatest] at ht
        refine ⟨?_, ht.2⟩
        have := ht.1
        simp only [Ticket.lt_def, Ticket.number_next] at this ⊢
        omega
    · rename_i ho
      rw [if_neg ho] at hlatest
      rw [← hlatest]
      exact ih h

theorem pairwise_tickets (ops : List Operation) (x : σ × Dashboard) :
    (tickets source ops x).Pairwise (· < ·) := by
  induction ops generalizing x with
  | nil => exact List.Pairwise.nil
  | cons o ops ih =>
    rw [tickets]
    split
    · rename_i ho
      refine List.pairwise_cons.2 ⟨fun t ht => ?_, ih _⟩
      have := (mem_tickets source ht).1
      rwa [Operation.latest_run, if_pos ho] at this
    · exact ih _

theorem tickets_append (ops later : List Operation) (x : σ × Dashboard) :
    tickets source (ops ++ later) x =
      tickets source ops x ++ tickets source later (runAll source ops x) := by
  induction ops generalizing x with
  | nil => rfl
  | cons o ops ih =>
    rw [List.cons_append, tickets, tickets, runAll_cons, ih]
    split <;> rfl

/-- A ticket is the latest one until something else asks for rows. -/
theorem accepts_runAll_iff {x : σ × Dashboard} {t : Ticket} (ht : x.2.latest = t)
    (ops : List Operation) : (runAll source ops x).2.Accepts t ↔ ∀ o ∈ ops, ¬o.Asks := by
  have hcount := number_latest_runAll source ops x
  rw [ht] at hcount
  have hzero : ops.countP (fun o => o.Asks) = 0 ↔ ∀ o ∈ ops, ¬o.Asks := by
    rw [List.countP_eq_zero]
    simp only [decide_eq_true_eq]
  rw [← hzero, Accepts, Ticket.le_def, hcount]
  omega

/-- Rows that were asked for with a window are taken just when nothing else has asked for rows
since then. Then they go on display, the dashboard is still at this window and no ticket is newer;
otherwise nothing changes. -/
theorem receive_after_setWindow (s : σ) (window : Window) (selection : Selection)
    (before between : List Operation) (w : Window) (rows : List Row) :
    let start := (s, Dashboard.start window selection)
    let ops := before ++ .setWindow w :: between
    let t := ((runAll source before start).2.setWindow w).1
    let d := (runAll source ops start).2
    let handedOut := tickets source ops start
    (handedOut.Pairwise (· < ·) ∧ t ∈ handedOut ∧ d.latest.number = handedOut.length) ∧
      ((d.receive t rows).1 = true ↔ ∀ o ∈ between, ¬o.Asks) ∧
      ((d.receive t rows).1 = true →
        (d.receive t rows).2 = { d with rows } ∧ d.window = w ∧ ∀ u ∈ handedOut, u ≤ t) ∧
      ((d.receive t rows).1 = false → (d.receive t rows).2 = d) := by
  intro start ops t d handedOut
  let asked := runAll source [.setWindow w] (runAll source before start)
  have hd : d = (runAll source between asked).2 := by
    rw [show d = (runAll source ops start).2 from rfl, runAll_append, runAll_cons]
    rfl
  have hmem : t ∈ handedOut := by
    rw [show handedOut = tickets source ops start from rfl, tickets_append, tickets,
      if_pos (show (Operation.setWindow w).Asks from trivial)]
    exact List.mem_append_right _ List.mem_cons_self
  have hlatest : d.latest.number = handedOut.length := by
    rw [number_latest_runAll, length_tickets, show start.2.latest.number = 0 from rfl, Nat.zero_add]
  have hiff : d.Accepts t ↔ ∀ o ∈ between, ¬o.Asks := by
    rw [hd]
    exact accepts_runAll_iff source rfl between
  refine ⟨⟨pairwise_tickets source ops start, hmem, hlatest⟩, ?_⟩
  by_cases h : d.Accepts t
  · rw [receive_of_accepts h]
    refine ⟨iff_of_true rfl (hiff.1 h), fun _ => ⟨rfl, ?_, fun u hu => ?_⟩, (nomatch ·)⟩
    · rw [hd, window_runAll source (hiff.1 h)]
      rfl
    · exact Nat.le_trans (mem_tickets source hu).2 h
  · rw [receive_of_not_accepts h]
    exact ⟨iff_of_false Bool.false_ne_true (mt hiff.2 h), (nomatch ·), fun _ => rfl⟩

/-- A choice of keys and old rows do not make a request stale, but a refresh does, even if it
fails. -/
theorem receive_after_setWindow_of_failed_refresh :
    let june (day : Nat) (h : 1 ≤ day ∧ day ≤ 30) : Window :=
      let date : Calendar.Date := ⟨2024, 6, day, by decide, by decide, h⟩
      ⟨date, date, Int.le_refl _⟩
    let failing : Source Unit := fun _ s => (.error (.noData "captures"), s)
    let start := ((), Dashboard.start (june 1 (by decide)) .all)
    let before : List Operation := [.setWindow (june 2 (by decide))]
    let stale := (start.2.setWindow (june 2 (by decide))).1
    let quiet : List Operation := [.selectApiKeys ["k1"], .receive stale [], .toggleModel "m1"]
    let w := june 3 (by decide)
    let t := ((runAll failing before start).2.setWindow w).1
    let accepting := (runAll failing (before ++ .setWindow w :: quiet) start).2
    let refusing := (runAll failing (before ++ .setWindow w :: (quiet ++ [.refresh])) start).2
    accepting.receive t [Row.empty] = (true, { accepting with rows := [Row.empty] }) ∧
      accepting.window = w ∧ stale ≤ t ∧ refusing.receive t [Row.empty] = (false, refusing) := by
  intro june failing start before stale quiet w t accepting refusing
  obtain ⟨-, hiff, hyes, -⟩ :=
    receive_after_setWindow failing () (june 1 (by decide)) .all before quiet w [Row.empty]
  obtain ⟨-, hiff', -, hno⟩ := receive_after_setWindow failing () (june 1 (by decide)) .all before
    (quiet ++ [.refresh]) w [Row.empty]
  have htaken : (accepting.receive t [Row.empty]).1 = true := hiff.2 (by decide)
  have hdropped : (refusing.receive t [Row.empty]).1 = false :=
    Bool.eq_false_iff.2 fun h => hiff'.1 h .refresh (by simp) trivial
  obtain ⟨hrows, hwindow, hnewest⟩ := hyes htaken
  exact ⟨Prod.ext htaken hrows, hwindow, hnewest stale List.mem_cons_self,
    Prod.ext hdropped (hno hdropped)⟩

end Dashboard

end CacheActivity
