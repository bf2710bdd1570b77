import CollectiveFabric.Multiprocess.Links
import CollectiveFabric.Multiprocess.Standing

/-!
# What the coordinator tells

Everything the coordinator does between two reads is to send frames and to
log; neither takes a frame, loses a connection or changes who the workers
are. What was sent is written down with the links.
-/

namespace CollectiveFabric

open Common

/-- The sum a line prints. -/
def Line.total : Line → Option UInt32
  | .allreduceDone _ sum => some sum
  | _ => none

namespace Coordinator

variable {s s' s'' : Coordinator} {b b' b'' : Book} {links : List Link}
variable {fs gs : ℕ → List Frame}

/-- The sums that were logged. -/
def totals (s : Coordinator) : List UInt32 := s.log.filterMap Line.total

/-- **The coordinator has told each worker `fs`**, and done nothing else
to its connections. -/
structure Tells (s s' : Coordinator) (b b' : Book) (fs : ℕ → List Frame) : Prop where
  workers : s'.workers = s.workers
  executed : s'.executed = s.executed
  totals : s'.totals = s.totals
  passed : Passed s.connections s'.connections
  wired : ∀ links, Wired s.connections links b → Wired s'.connections links b'
  told : ∀ k, b'.told k = b.told k ++ fs k
  taken : b'.taken = b.taken

namespace Tells

/-- Nothing is told. -/
theorem silent (hworkers : s'.workers = s.workers) (hexecuted : s'.executed = s.executed)
    (htotals : s'.totals = s.totals) (hconnections : s'.connections = s.connections) :
    Tells s s' b b fun _ => [] where
  workers := hworkers
  executed := hexecuted
  totals := htotals
  passed := hconnections ▸ .refl _
  wired _ h := hconnections ▸ h
  told _ := (List.append_nil _).symm
  taken := rfl

theorem refl (s : Coordinator) (b : Book) : Tells s s b b fun _ => [] := silent rfl rfl rfl rfl

theorem trans (h : Tells s s' b b' fs) (h' : Tells s' s'' b' b'' gs) :
    Tells s s'' b b'' fun k => fs k ++ gs k where
  workers := h'.workers.trans h.workers
  executed := h'.executed.trans h.executed
  totals := h'.totals.trans h.totals
  passed := h.passed.trans h'.passed
  wired links hw := h'.wired links (h.wired links hw)
  told k := by rw [h'.told, h.told, List.append_assoc]
  taken := h'.taken.trans h.taken

/-- What follows tells nothing more. -/
theorem before (h : Tells s s' b b' fs) (h' : Tells s' s'' b' b' fun _ => []) :
    Tells s s'' b b' fs := by
  have hall := h.trans h'
  simpa only [List.append_nil] using hall

/-- What came before told nothing. -/
theorem after (h : Tells s s' b b fun _ => []) (h' : Tells s' s'' b b' fs) :
    Tells s s'' b b' fs := by
  have hall := h.trans h'
  simpa only [List.nil_append] using hall

/-- A line that prints no sum. -/
theorem say (s : Coordinator) (b : Book) (line : Line) (hline : line.total = none) :
    Tells s (s.say line) b b fun _ => [] := by
  refine silent rfl rfl ?_ rfl
  simp only [Coordinator.totals, Coordinator.say, List.filterMap_append, List.filterMap_cons, hline,
    List.filterMap_nil, List.append_nil]

theorem text (s : Coordinator) (b : Book) (t : String) :
    Tells s (s.say (.text t)) b b fun _ => [] := say s b _ rfl

theorem goto (s : Coordinator) (b : Book) (p : Phase) : Tells s (s.goto p) b b fun _ => [] :=
  silent rfl rfl rfl rfl

theorem quit (s : Coordinator) (b : Book) (line : String) :
    Tells s (s.quit line) b b fun _ => [] := (text s b line).before (goto _ b _)

theorem runtime (s : Coordinator) (b : Book) (rt : Runtime) :
    Tells s { s with runtime := rt } b b fun _ => [] := silent rfl rfl rfl rfl

theorem saved (s : Coordinator) (b : Book) (saves : List (String × PersistentState)) :
    Tells s { s with saved := saves } b b fun _ => [] := silent rfl rfl rfl rfl

/-- One frame is sent. -/
theorem send (s : Coordinator) (b : Book) {k : ℕ} (hk : k < s.connections.length) (f : Frame) :
    Tells s (s.send k f) b (b.tell k [f]) fun j => if j = k then [f] else [] := by
  have hc : s.connections[k]? = some s.connections[k] := List.getElem?_eq_getElem hk
  have hmodify : (s.send k f).connections = s.connections.set k (s.connections[k].send f) := by
    show s.connections.modify k (·.send f) = _
    rw [List.modify_eq_set_getElem?, hc]
    rfl
  refine ⟨rfl, rfl, rfl, ?_, fun links h => h.send hk f, fun j => ?_, rfl⟩
  · rw [hmodify]
    exact .set hc rfl fun hdeaf => hdeaf.send f
  · by_cases hj : j = k
    · subst hj
      simp [Book.tell]
    · simp [Book.tell, hj]

/-- A loop that says one line a turn. -/
theorem foldl_say {α : Type} (line : α → Line) (hline : ∀ a, (line a).total = none) (xs : List α)
    (s : Coordinator) (b : Book) :
    Tells s (xs.foldl (fun s a => s.say (line a)) s) b b fun _ => [] := by
  induction xs generalizing s with
  | nil => exact refl s b
  | cons x xs ih => exact (say s b _ (hline x)).after (ih _)

end Tells

/-! ## A frame for each worker -/

/-- The workers are in place: each has the connection of its number. -/
def InPlace (s : Coordinator) : Prop :=
  ∀ (k : ℕ) (w : WorkerState), s.workers[k]? = some w → w.ch = k

/-- What each connection is sent when each worker is sent a frame. -/
def toEach (ws : List WorkerState) (f : WorkerState → Frame) (k : ℕ) : List Frame :=
  (ws.filter fun w => w.ch = k).map f

theorem toEach_eq {ws : List WorkerState} {n k : ℕ} (f : WorkerState → Frame)
    (h : ∀ i w, ws[i]? = some w → w.ch = n + i) :
    toEach ws f k = if k < n then [] else (ws[k - n]?.map f).toList := by
  induction ws generalizing n with
  | nil => simp [toEach]
  | cons w ws ih =>
    have hw : w.ch = n := h 0 w rfl
    have hrest (i : ℕ) (v : WorkerState) (hv : ws[i]? = some v) : v.ch = n + 1 + i := by
      rw [h (i + 1) v (by rw [List.getElem?_cons_succ, hv])]
      omega
    have htail := ih hrest
    rcases lt_trichotomy k n with hk | rfl | hk
    · rw [if_pos hk]
      rw [if_pos (by omega)] at htail
      rw [toEach, List.filter_cons_of_neg (by simp [hw]; omega)]
      exact htail
    · rw [if_neg (lt_irrefl k), Nat.sub_self]
      rw [if_pos (Nat.lt_succ_self k)] at htail
      rw [toEach, List.filter_cons_of_pos (by simp [hw]), List.map_cons]
      exact congrArg (f w :: ·) htail
    · rw [if_neg (by omega)]
      rw [if_neg (by omega)] at htail
      rw [toEach, List.filter_cons_of_neg (by simp [hw]; omega)]
      obtain ⟨i, rfl⟩ := Nat.exists_eq_add_of_lt hk
      have hi : n + i + 1 - n = i + 1 := by omega
      have hi' : n + i + 1 - (n + 1) = i := by omega
      rw [hi, List.getElem?_cons_succ]
      rw [hi'] at htail
      exact htail

/-- **Each worker is sent its frame**, and the other connections none. -/
theorem toEach_of_inPlace (h : s.InPlace) (f : WorkerState → Frame) (k : ℕ) :
    toEach s.workers f k = (s.workers[k]?.map f).toList := by
  have heq := @toEach_eq s.workers 0 k f fun i w hw => by rw [h i w hw, Nat.zero_add]
  rwa [if_neg (Nat.not_lt_zero k), Nat.sub_zero] at heq

namespace Tells

/-- A loop that sends a frame a turn. -/
theorem foldl_send {g : Coordinator → WorkerState → Coordinator} (f : WorkerState → Frame)
    (hg : ∀ s b w, Tells (s.send w.ch (f w)) (g s w) b b fun _ => []) (ws : List WorkerState)
    (s : Coordinator) (b : Book) (hws : ∀ w ∈ ws, w.ch < s.connections.length) :
    ∃ b', Tells s (ws.foldl g s) b b' (toEach ws f) := by
  induction ws generalizing s b with
  | nil => exact ⟨b, refl s b⟩
  | cons w ws ih =>
    have hone := (send s b (hws w List.mem_cons_self) (f w)).before (hg s _ w)
    obtain ⟨b', hrest⟩ := ih (g s w) (b.tell w.ch [f w]) fun v hv => by
      rw [hone.passed.length]
      exact hws v (List.mem_cons_of_mem w hv)
    have hall := hone.trans hrest
    have hsame : (fun k => (if k = w.ch then [f w] else []) ++ toEach ws f k) =
        toEach (w :: ws) f := by
      funext k
      by_cases hk : w.ch = k
      · rw [if_pos hk.symm, toEach, toEach, List.filter_cons_of_pos (by simpa using hk)]
        rfl
      · rw [if_neg (Ne.symm hk), toEach, toEach, List.filter_cons_of_neg (by simpa using hk)]
        rfl
    exact ⟨b', hsame ▸ hall⟩

end Tells

/-- Every worker's connection is there. -/
def Connected (s : Coordinator) : Prop := s.workers.length ≤ s.connections.length

theorem InPlace.ch_lt (h : s.InPlace) (hlength : s.Connected) :
    ∀ w ∈ s.workers, w.ch < s.connections.length := by
  intro w hw
  obtain ⟨k, hlt, rfl⟩ := List.mem_iff_getElem.1 hw
  rw [h k s.workers[k] (List.getElem?_eq_getElem hlt)]
  exact Nat.lt_of_lt_of_le hlt hlength

theorem exists_tells_sendEach (h : s.InPlace) (hlength : s.Connected) (b : Book)
    (f : WorkerState → Frame) :
    ∃ b', Tells s (s.sendEach f) b b' fun k => (s.workers[k]?.map f).toList := by
  obtain ⟨b', htells⟩ := Tells.foldl_send f (fun s b w => .refl _ b) s.workers s b
    (h.ch_lt hlength)
  exact ⟨b', (funext (toEach_of_inPlace h f)) ▸ htells⟩

/-- The `GROUP_ACCEPT` a worker is sent. -/
def announced (g : CollectiveGroup) (gen : UInt64) (w : WorkerState) : Frame where
  kind := .of .groupAccept
  payload := encRankAccept (rankOfBoot g w.boot).raw g.rankCount groupId.raw gen

theorem exists_tells_announce (h : s.InPlace) (hlength : s.Connected) (b : Book)
    (g : CollectiveGroup) (gen : UInt64) (line : UInt64 → RankId → Line)
    (hline : ∀ boot rank, (line boot rank).total = none) :
    ∃ b', Tells s (s.announce g gen line) b b' fun k =>
      (s.workers[k]?.map (announced g gen)).toList := by
  let f := announced g gen
  obtain ⟨b', htells⟩ := Tells.foldl_send
    (g := fun s w => (s.send w.ch (f w)).say (line w.boot (rankOfBoot g w.boot))) f
    (fun s b w => .say _ b _ (hline _ _)) s.workers s b (h.ch_lt hlength)
  exact ⟨b', (funext (toEach_of_inPlace h f)) ▸ htells⟩

end Coordinator

end CollectiveFabric
