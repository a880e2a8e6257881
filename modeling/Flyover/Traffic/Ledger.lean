import Flyover.Checked
import Flyover.Traffic.Books

/-!
# What the books say of the flits

The flits in flight are numbered in the order in which they were generated. Those of a
packet that are not sent wait behind one another, and the packet's head is either in flight
before them or kept for them. So whatever the network delivers, flit by flit and each packet
in order, is found where the traffic manager looks for it.
-/

namespace Flyover.Traffic

namespace Books

variable {ι : Type} {nodes : ℕ} {config : BooksConfig ι nodes} {s s' : Books ι}
  {f g : TrafficFlit ι} {source : ℤ} {cl : ι}

structure Ledger (s : Books ι) : Prop where
  id_lt : ∀ f ∈ s.totalInFlightFlits, f.id < s.curId
  pid_lt : ∀ f ∈ s.totalInFlightFlits, f.pid < s.curPid
  retired_lt : ∀ c p h, s.retiredPackets c p = some h → p < s.curPid
  ids : s.totalInFlightFlits.Pairwise fun f g => f.id < g.id
  measured : ∀ f, f ∈ s.measuredInFlightFlits ↔ f ∈ s.totalInFlightFlits ∧ f.record = true
  queued : ∀ n c, ∀ f ∈ s.partialPackets n c, f ∈ s.totalInFlightFlits ∧ f.src = n ∧ f.cl = c
  queue : ∀ n c, (s.partialPackets n c).Pairwise fun f g => f.id < g.id
  behind : ∀ f g, s.Sent f → g ∈ s.partialPackets g.src g.cl → g.pid = f.pid → f.id < g.id
  same : ∀ f ∈ s.totalInFlightFlits, ∀ g ∈ s.totalInFlightFlits, g.pid = f.pid →
    g.src = f.src ∧ g.cl = f.cl
  dest : ∀ f ∈ s.totalInFlightFlits, f.head = true → f.dest = s.packetDest f.pid
  leads : ∀ f ∈ s.totalInFlightFlits, f.head = true →
    ∀ g ∈ s.totalInFlightFlits, g.pid = f.pid → f.id ≤ g.id
  ends : ∀ f ∈ s.totalInFlightFlits, f.tail = true →
    ∀ g ∈ s.totalInFlightFlits, g.pid = f.pid → g.id ≤ f.id
  headed : ∀ f ∈ s.totalInFlightFlits, f.head = false →
    (∃ h ∈ s.totalInFlightFlits, h.head = true ∧ h.pid = f.pid ∧ h.id < f.id) ∨
      ∃ h, s.retiredPackets f.cl f.pid = some h ∧ h.head = true ∧ h.pid = f.pid
  fresh : ∀ f ∈ s.totalInFlightFlits, f.head = true → s.retiredPackets f.cl f.pid = none
  tailed : ∀ f ∈ s.totalInFlightFlits, ∃ t ∈ s.totalInFlightFlits, t.tail = true ∧ t.pid = f.pid
  kept : ∀ c p h, s.retiredPackets c p = some h →
    ∃ t ∈ s.totalInFlightFlits, t.tail = true ∧ t.cl = c ∧ t.pid = p

/-! ### What does not touch the flits -/

/-- The flits are as they were. -/
structure SameFlits (s s' : Books ι) : Prop where
  curId : s'.curId = s.curId
  curPid : s'.curPid = s.curPid
  total : s'.totalInFlightFlits = s.totalInFlightFlits
  measured : s'.measuredInFlightFlits = s.measuredInFlightFlits
  retired : s'.retiredPackets = s.retiredPackets
  queues : s'.partialPackets = s.partialPackets
  packetDest : s'.packetDest = s.packetDest

theorem SameFlits.refl (s : Books ι) : SameFlits s s := ⟨rfl, rfl, rfl, rfl, rfl, rfl, rfl⟩

theorem SameFlits.trans {s'' : Books ι} (h : SameFlits s s') (h' : SameFlits s' s'') :
    SameFlits s s'' where
  curId := h'.curId.trans h.curId
  curPid := h'.curPid.trans h.curPid
  total := h'.total.trans h.total
  measured := h'.measured.trans h.measured
  retired := h'.retired.trans h.retired
  queues := h'.queues.trans h.queues
  packetDest := h'.packetDest.trans h.packetDest

theorem SameFlits.sent (h : SameFlits s s') : s'.Sent f ↔ s.Sent f := by
  rw [Sent, Sent, h.total, h.queues]

theorem Ledger.same_flits (hledger : Ledger s) (h : SameFlits s s') : Ledger s' where
  id_lt := by simpa only [h.total, h.curId] using hledger.id_lt
  pid_lt := by simpa only [h.total, h.curPid] using hledger.pid_lt
  retired_lt := by simpa only [h.retired, h.curPid] using hledger.retired_lt
  ids := by simpa only [h.total] using hledger.ids
  measured := by simpa only [h.measured, h.total] using hledger.measured
  queued := by simpa only [h.queues, h.total] using hledger.queued
  queue := by simpa only [h.queues] using hledger.queue
  behind := by simpa only [h.sent, h.queues] using hledger.behind
  same := by simpa only [h.total] using hledger.same
  dest := by simpa only [h.total, h.packetDest] using hledger.dest
  leads := by simpa only [h.total] using hledger.leads
  ends := by simpa only [h.total] using hledger.ends
  headed := by simpa only [h.total, h.retired] using hledger.headed
  fresh := by simpa only [h.total, h.retired] using hledger.fresh
  tailed := by simpa only [h.total] using hledger.tailed
  kept := by simpa only [h.total, h.retired] using hledger.kept

theorem countOutstanding_same (s : Books ι) (source : ℤ) : SameFlits s (s.countOutstanding source) :=
  ⟨rfl, rfl, rfl, rfl, rfl, rfl, rfl⟩

theorem countPacket_same (s : Books ι) (source result : ℤ) :
    SameFlits s (s.countPacket source result).2 := by
  unfold countPacket
  split
  · exact ⟨rfl, rfl, rfl, rfl, rfl, rfl, rfl⟩
  · exact .refl s

/-- No batch holds a request back. -/
def Room (config : BooksConfig ι nodes) (s : Books ι) (source : ℤ) : Prop :=
  ∀ batch, config.batch = some batch → mayRequest batch s source = true

/-- What `_IssuePacket` can do. -/
inductive Issues (config : BooksConfig ι nodes) (s : Books ι) (source : ℤ) (cl : ι) :
    ℤ × Books ι → Prop where
  | nothing : Issues config s source cl (s.countPacket source 0)
  | reply : (config.books cl).useReadWrite = true →
      Issues config s source cl (s.countPacket source (-1))
  | request {x : ℤ} : 0 < x → Room config s source →
      Issues config s source cl ((s.countOutstanding source).countPacket source x)
  | packet {size : ℕ} {pct : ℤ} : (config.books cl).getNextPacketSize pct = .ok size →
      Room config s source →
      Issues config s source cl ((s.countOutstanding source).countPacket source size)
  | test {x : ℤ} : config.batch = none → (config.books cl).useReadWrite = false →
      Issues config s source cl ((s.countOutstanding source).countPacket source x)

theorem issues_waiting (config : BooksConfig ι nodes) (s : Books ι) (source : ℤ)
    (hrw : (config.books cl).useReadWrite = true) (due : Prop) [Decidable due] :
    Issues config s source cl (s.countPacket source (if due then -1 else 0)) := by
  split
  · exact .reply hrw
  · exact .nothing

theorem issue_issues {draws : InjectDraws} {result : ℤ × Books ι}
    (h : issue config s source cl draws = .ok result) : Issues config s source cl result := by
  have hcoin : (0 : ℤ) < if draws.write then 2 else 1 := by split <;> decide
  unfold issue at h
  split at h
  next batch hbatch =>
    have hroom : mayRequest batch s source = true → Room config s source := by
      intro hmay batch' hbatch'
      obtain rfl := Option.some.inj (hbatch.symm.trans hbatch')
      exact hmay
    unfold batchIssuePacket at h
    split at h
    next hrw =>
      split at h
      next =>
        cases h
        exact issues_waiting config s source hrw _
      next =>
        split at h
        next hmay =>
          cases h
          exact .request hcoin (hroom hmay)
        next =>
          cases h
          exact .nothing
    next =>
      split at h
      next hmay =>
        obtain ⟨size, hsize, hresult⟩ := bind_ok.mp h
        cases hresult
        exact .packet hsize (hroom hmay)
      next =>
        cases h
        exact .nothing
  next hplain =>
    have hroom : Room config s source := fun batch hbatch => by
      rw [hplain] at hbatch
      cases hbatch
    cases h
    unfold issuePacket
    split
    next hrw =>
      split
      next => exact issues_waiting config s source hrw _
      next =>
        split
        next => exact .request hcoin hroom
        next => exact .nothing
    next hrw => exact .test hplain (Bool.eq_false_of_not_eq_true hrw)

theorem Issues.same {result : ℤ × Books ι} (h : Issues config s source cl result) :
    SameFlits s result.2 := by
  have hcounted : ∀ x : ℤ, SameFlits s ((s.countOutstanding source).countPacket source x).2 :=
    fun x => (countOutstanding_same s source).trans (countPacket_same _ source x)
  cases h with
  | nothing => exact countPacket_same s source _
  | reply _ => exact countPacket_same s source _
  | request _ _ => exact hcounted _
  | packet _ _ => exact hcounted _
  | test _ _ => exact hcounted _

theorem retirePacket_same (s : Books ι) (f : TrafficFlit ι) (dest : ℤ) :
    SameFlits s (s.retirePacket f dest) := by
  unfold retirePacket
  split <;> exact ⟨rfl, rfl, rfl, rfl, rfl, rfl, rfl⟩

/-! ### A packet is generated -/

theorem mem_packetFlits {id pid size : ℕ} {p : PacketPlan} :
    f ∈ packetFlits source cl id pid size p ↔ ∃ i < size,
      { id := id + i, pid := pid, src := source, dest := if i = 0 then p.dest else -1, cl := cl
        type := p.type, head := decide (i = 0), tail := decide (i + 1 = size), ctime := p.time
        record := p.record } = f := by
  simp [packetFlits]

section Enter

variable {size : ℕ} {p : PacketPlan}

/-- A flit of the new packet. -/
structure New (s : Books ι) (source : ℤ) (cl : ι) (size : ℕ) (p : PacketPlan) (f : TrafficFlit ι)
    (i : ℕ) : Prop where
  lt : i < size
  id : f.id = s.curId + i
  pid : f.pid = s.curPid
  src : f.src = source
  cl : f.cl = cl
  type : f.type = p.type
  head : f.head = true ↔ i = 0
  tail : f.tail = true ↔ i + 1 = size
  dest : i = 0 → f.dest = p.dest
  record : f.record = p.record

theorem exists_new (h : f ∈ packetFlits source cl s.curId s.curPid size p) :
    ∃ i, New s source cl size p f i := by
  obtain ⟨i, hi, rfl⟩ := mem_packetFlits.mp h
  exact ⟨i, hi, rfl, rfl, rfl, rfl, rfl, decide_eq_true_iff, decide_eq_true_iff, fun h => if_pos h, rfl⟩

theorem exists_mem_new {i : ℕ} (hi : i < size) :
    ∃ g ∈ packetFlits source cl s.curId s.curPid size p, New s source cl size p g i := by
  refine ⟨_, mem_packetFlits.mpr ⟨i, hi, rfl⟩, ?_⟩
  exact ⟨hi, rfl, rfl, rfl, rfl, rfl, decide_eq_true_iff, decide_eq_true_iff, fun h => if_pos h, rfl⟩

/-- Behind flits that are old the flits of the new packet keep the order of the ids. -/
theorem Ledger.pairwise_append (h : Ledger s) {flits : List (TrafficFlit ι)}
    (hold : ∀ f ∈ flits, f ∈ s.totalInFlightFlits) (hflits : flits.Pairwise fun f g => f.id < g.id) :
    (flits ++ packetFlits source cl s.curId s.curPid size p).Pairwise fun f g => f.id < g.id := by
  have hnew : (packetFlits source cl s.curId s.curPid size p).Pairwise fun f g => f.id < g.id :=
    List.pairwise_map.mpr (List.pairwise_lt_range.imp fun hlt => Nat.add_lt_add_left hlt _)
  refine List.pairwise_append.mpr ⟨hflits, hnew, fun f hf g hg => ?_⟩
  obtain ⟨i, hi⟩ := exists_new hg
  exact (h.id_lt f (hold f hf)).trans_le (hi.id ▸ Nat.le_add_right _ _)

variable [DecidableEq ι]

theorem mem_enter : f ∈ (s.enter source cl size p).totalInFlightFlits ↔
    f ∈ s.totalInFlightFlits ∨ f ∈ packetFlits source cl s.curId s.curPid size p :=
  List.mem_append

theorem old_or_new (hf : f ∈ (s.enter source cl size p).totalInFlightFlits) :
    f ∈ s.totalInFlightFlits ∨ ∃ i, New s source cl size p f i :=
  (mem_enter.mp hf).imp_right exists_new

theorem update_queue (queues : ℤ → ι → List (TrafficFlit ι)) (source : ℤ) (cl : ι)
    (change : List (TrafficFlit ι) → List (TrafficFlit ι)) (n : ℤ) (c : ι) :
    Function.update queues source (Function.update (queues source) cl
      (change (queues source cl))) n c =
      if n = source ∧ c = cl then change (queues n c) else queues n c := by
  by_cases hn : n = source
  · subst hn
    rw [Function.update_self]
    by_cases hc : c = cl
    · subst hc
      rw [Function.update_self, if_pos ⟨rfl, rfl⟩]
    · rw [Function.update_of_ne hc, if_neg fun h => hc h.2]
  · rw [Function.update_of_ne hn, if_neg fun h => hn h.1]

theorem enter_queue (s : Books ι) (source : ℤ) (cl : ι) (size : ℕ) (p : PacketPlan) (n : ℤ) (c : ι) :
    (s.enter source cl size p).partialPackets n c =
      if n = source ∧ c = cl then
        s.partialPackets n c ++ packetFlits source cl s.curId s.curPid size p
      else s.partialPackets n c :=
  update_queue s.partialPackets source cl (· ++ packetFlits source cl s.curId s.curPid size p) n c

theorem mem_enter_queue {n : ℤ} {c : ι} : f ∈ (s.enter source cl size p).partialPackets n c ↔
    f ∈ s.partialPackets n c ∨
      (n = source ∧ c = cl) ∧ f ∈ packetFlits source cl s.curId s.curPid size p := by
  rw [enter_queue]
  split
  next hthis => rw [List.mem_append, and_iff_right hthis]
  next hthis => exact ⟨.inl, fun hf => hf.elim id fun hnew => absurd hnew.1 hthis⟩

/-- Two flits of one packet are both old or both new. -/
theorem Ledger.enter_pair (h : Ledger s) (hf : f ∈ (s.enter source cl size p).totalInFlightFlits)
    (hg : g ∈ (s.enter source cl size p).totalInFlightFlits) (hpid : g.pid = f.pid) :
    (f ∈ s.totalInFlightFlits ∧ g ∈ s.totalInFlightFlits) ∨
      ∃ i j, New s source cl size p f i ∧ New s source cl size p g j := by
  rcases old_or_new hf with hold | ⟨i, hi⟩
  · rcases old_or_new hg with hold' | ⟨j, hj⟩
    · exact .inl ⟨hold, hold'⟩
    · exact absurd (hj.pid.symm.trans hpid) (h.pid_lt f hold).ne'
  · rcases old_or_new hg with hold' | ⟨j, hj⟩
    · exact absurd (hpid.trans hi.pid) (h.pid_lt g hold').ne
    · exact .inr ⟨i, j, hi, hj⟩

theorem mem_enter_measured : f ∈ (s.enter source cl size p).measuredInFlightFlits ↔
    f ∈ s.measuredInFlightFlits ∨
      f ∈ packetFlits source cl s.curId s.curPid size p ∧ f.record = true := by
  change f ∈ (if p.record then s.measuredInFlightFlits ++
    packetFlits source cl s.curId s.curPid size p else s.measuredInFlightFlits) ↔ _
  have hsame : f ∈ packetFlits source cl s.curId s.curPid size p → f.record = p.record := by
    intro hf
    obtain ⟨i, hi⟩ := exists_new hf
    exact hi.record
  split
  next hrecord =>
    rw [List.mem_append]
    exact or_congr_right ⟨fun hf => ⟨hf, (hsame hf).trans hrecord⟩, fun hf => hf.1⟩
  next hrecord =>
    exact ⟨.inl, fun hf => hf.elim id fun hnew => absurd ((hsame hnew.1).symm.trans hnew.2) hrecord⟩

/-- The head of the new packet is in flight, ahead of its other flits. -/
theorem New.headed {i : ℕ} (hi : New s source cl size p f i) (hhead : f.head = false) :
    ∃ t ∈ (s.enter source cl size p).totalInFlightFlits,
      t.head = true ∧ t.pid = f.pid ∧ t.id < f.id := by
  have hi' : i ≠ 0 := fun hzero => by
    rw [hi.head.mpr hzero] at hhead
    cases hhead
  obtain ⟨t, ht, hfirst⟩ := exists_mem_new (Nat.zero_lt_of_lt hi.lt)
  refine ⟨t, mem_enter.mpr (.inr ht), hfirst.head.mpr rfl, hfirst.pid.trans hi.pid.symm, ?_⟩
  rw [hfirst.id, hi.id]
  exact Nat.add_lt_add_left (Nat.pos_of_ne_zero hi') _

/-- The tail of the new packet is in flight. -/
theorem New.tailed {i : ℕ} (hi : New s source cl size p f i) :
    ∃ t ∈ (s.enter source cl size p).totalInFlightFlits, t.tail = true ∧ t.pid = f.pid := by
  obtain ⟨t, ht, hlast⟩ := exists_mem_new (Nat.sub_lt (Nat.zero_lt_of_lt hi.lt) Nat.one_pos)
  refine ⟨t, mem_enter.mpr (.inr ht), hlast.tail.mpr ?_, hlast.pid.trans hi.pid.symm⟩
  exact Nat.sub_add_cancel (Nat.one_le_of_lt hi.lt)

theorem Ledger.enter (h : Ledger s) (source : ℤ) (cl : ι) (size : ℕ) (p : PacketPlan) :
    Ledger (s.enter source cl size p) where
  id_lt f hf := by
    rcases old_or_new hf with hold | ⟨i, hi⟩
    · exact Nat.lt_add_right _ (h.id_lt f hold)
    · rw [hi.id]
      exact Nat.add_lt_add_left hi.lt _
  pid_lt f hf := by
    rcases old_or_new hf with hold | ⟨i, hi⟩
    · exact Nat.lt_succ_of_lt (h.pid_lt f hold)
    · rw [hi.pid]
      exact Nat.lt_succ_self _
  retired_lt c q t ht := Nat.lt_succ_of_lt (h.retired_lt c q t ht)
  ids := h.pairwise_append (fun _ hf => hf) h.ids
  measured f := by
    rw [mem_enter, or_and_right, ← h.measured]
    exact mem_enter_measured
  queued n c f hf := by
    rcases mem_enter_queue.mp hf with hold | ⟨⟨rfl, rfl⟩, hnew⟩
    · obtain ⟨hmem, hclass⟩ := h.queued n c f hold
      exact ⟨mem_enter.mpr (.inl hmem), hclass⟩
    · obtain ⟨i, hi⟩ := exists_new hnew
      exact ⟨mem_enter.mpr (.inr hnew), hi.src, hi.cl⟩
  queue n c := by
    rw [enter_queue]
    split
    · exact h.pairwise_append (fun f hf => (h.queued n c f hf).1) (h.queue n c)
    · exact h.queue n c
  behind f g hsent hg hpid := by
    -- a flit that is sent is old: the new ones all wait in the queue of their source
    rcases mem_enter.mp hsent.1 with hold | hnew
    · have hsent' : s.Sent f := ⟨hold, fun hf => hsent.2 (mem_enter_queue.mpr (.inl hf))⟩
      rcases mem_enter_queue.mp hg with hg | ⟨-, hg⟩
      · exact h.behind f g hsent' hg hpid
      · obtain ⟨j, hj⟩ := exists_new hg
        exact absurd (hj.pid.symm.trans hpid) (h.pid_lt f hold).ne'
    · obtain ⟨i, hi⟩ := exists_new hnew
      exact absurd (mem_enter_queue.mpr (.inr ⟨⟨hi.src, hi.cl⟩, hnew⟩)) hsent.2
  same f hf g hg hpid := by
    rcases h.enter_pair hf hg hpid with ⟨hf, hg⟩ | ⟨i, j, hi, hj⟩
    · exact h.same f hf g hg hpid
    · exact ⟨hj.src.trans hi.src.symm, hj.cl.trans hi.cl.symm⟩
  dest f hf hhead := by
    change f.dest = Function.update s.packetDest s.curPid p.dest f.pid
    rcases old_or_new hf with hold | ⟨i, hi⟩
    · rw [Function.update_of_ne (h.pid_lt f hold).ne]
      exact h.dest f hold hhead
    · rw [hi.pid, Function.update_self]
      exact hi.dest (hi.head.mp hhead)
  leads f hf hhead g hg hpid := by
    rcases h.enter_pair hf hg hpid with ⟨hf, hg⟩ | ⟨i, j, hi, hj⟩
    · exact h.leads f hf hhead g hg hpid
    · rw [hi.id, hj.id, hi.head.mp hhead]
      exact Nat.add_le_add_left (Nat.zero_le j) _
  ends f hf htail g hg hpid := by
    rcases h.enter_pair hf hg hpid with ⟨hf, hg⟩ | ⟨i, j, hi, hj⟩
    · exact h.ends f hf htail g hg hpid
    · rw [hi.id, hj.id]
      exact Nat.add_le_add_left (Nat.le_of_lt_succ (hj.lt.trans_eq (hi.tail.mp htail).symm)) _
  headed f hf hhead := by
    rcases old_or_new hf with hold | ⟨i, hi⟩
    · rcases h.headed f hold hhead with ⟨t, ht, hlead⟩ | hretired
      · exact .inl ⟨t, mem_enter.mpr (.inl ht), hlead⟩
      · exact .inr hretired
    · exact .inl (hi.headed hhead)
  fresh f hf hhead := by
    rcases old_or_new hf with hold | ⟨i, hi⟩
    · exact h.fresh f hold hhead
    · refine Option.eq_none_iff_forall_ne_some.mpr fun t ht => ?_
      exact (h.retired_lt f.cl f.pid t ht).ne hi.pid
  tailed f hf := by
    rcases old_or_new hf with hold | ⟨i, hi⟩
    · obtain ⟨t, ht, hlast⟩ := h.tailed f hold
      exact ⟨t, mem_enter.mpr (.inl ht), hlast⟩
    · exact hi.tailed
  kept c q t ht := by
    obtain ⟨t', ht', hlast⟩ := h.kept c q t ht
    exact ⟨t', mem_enter.mpr (.inl ht'), hlast⟩

end Enter

theorem Ledger.eq_of_id (h : Ledger s) (hf : f ∈ s.totalInFlightFlits) (hg : g ∈ s.totalInFlightFlits)
    (hid : g.id = f.id) : g = f := by
  have hnodup : (s.totalInFlightFlits.map TrafficFlit.id).Nodup :=
    List.pairwise_map.mpr (h.ids.imp fun hlt => hlt.ne)
  exact List.inj_on_of_nodup_map hnodup hg hf hid

/-! ### A flit is sent -/

section Steps

variable [DecidableEq ι]

theorem send_queue (s : Books ι) (source : ℤ) (cl : ι) (n : ℤ) (c : ι) :
    (s.send source cl).partialPackets n c =
      if n = source ∧ c = cl then (s.partialPackets n c).tail else s.partialPackets n c :=
  update_queue s.partialPackets source cl List.tail n c

theorem mem_of_mem_send {n : ℤ} {c : ι} (h : f ∈ (s.send source cl).partialPackets n c) :
    f ∈ s.partialPackets n c := by
  rw [send_queue] at h
  split at h
  · exact List.mem_of_mem_tail h
  · exact h

theorem Ledger.send (h : Ledger s) (source : ℤ) (cl : ι) : Ledger (s.send source cl) where
  id_lt := h.id_lt
  pid_lt := h.pid_lt
  retired_lt := h.retired_lt
  ids := h.ids
  measured := h.measured
  queued n c f hf := h.queued n c f (mem_of_mem_send hf)
  queue n c := by
    rw [send_queue]
    split
    · exact (h.queue n c).tail
    · exact h.queue n c
  behind f g hsent hg hpid := by
    have hold := mem_of_mem_send hg
    by_cases hf : f ∈ s.partialPackets f.src f.cl
    · -- it is the flit that is sent, and the rest of its queue is behind it
      obtain ⟨hsrc, hcl⟩ := h.same f hsent.1 g (h.queued _ _ g hold).1 hpid
      have hnot := hsent.2
      rw [send_queue] at hnot hg
      rw [hsrc, hcl] at hg
      have hqueue := h.queue f.src f.cl
      split at hnot
      next hthis =>
        rw [if_pos hthis] at hg
        cases hlist : s.partialPackets f.src f.cl with
        | nil =>
            rw [hlist] at hf
            cases hf
        | cons first rest =>
            rw [hlist] at hf hnot hg hqueue
            rcases List.mem_cons.mp hf with rfl | hf
            · exact (List.pairwise_cons.mp hqueue).1 g hg
            · exact absurd hf hnot
      next => exact absurd hf hnot
    · exact h.behind f g ⟨hsent.1, hf⟩ hold hpid
  same := h.same
  dest := h.dest
  leads := h.leads
  ends := h.ends
  headed := h.headed
  fresh := h.fresh
  tailed := h.tailed
  kept := h.kept

/-! ### A flit is retired -/

theorem counts_of_mem {flits : List (TrafficFlit ι)} (hf : f ∈ flits) : counts flits f = true :=
  List.any_eq_true.mpr ⟨f, hf, decide_eq_true ⟨rfl, rfl⟩⟩

theorem Ledger.mem_erase_iff (h : Ledger s) (hf : f ∈ s.totalInFlightFlits) :
    g ∈ Books.erase s.totalInFlightFlits f ↔ g ∈ s.totalInFlightFlits ∧ g ≠ f := by
  rw [Books.erase, List.mem_filter, decide_eq_true_eq]
  refine and_congr_right fun hg => not_congr ⟨fun heq => h.eq_of_id hf hg heq.2, ?_⟩
  rintro rfl
  exact ⟨rfl, rfl⟩

/-- The flit that is delivered is the first of its packet in flight. -/
theorem Delivers.le (h : Ledger s) {dest : ℤ} (hdelivers : s.Delivers f dest)
    (hg : g ∈ s.totalInFlightFlits) (hpid : g.pid = f.pid) : f.id ≤ g.id := by
  by_cases hsent : g ∈ s.partialPackets g.src g.cl
  · exact (h.behind f g hdelivers.sent hsent hpid).le
  · exact hdelivers.first g ⟨hg, hsent⟩ hpid

/-- The flit is taken out of the books, and the heads that are kept are brought up to date. -/
structure Removes (f : TrafficFlit ι) (s s' : Books ι) : Prop where
  curId : s'.curId = s.curId
  curPid : s'.curPid = s.curPid
  total : s'.totalInFlightFlits = Books.erase s.totalInFlightFlits f
  measured : s'.measuredInFlightFlits =
    if f.record then Books.erase s.measuredInFlightFlits f else s.measuredInFlightFlits
  queues : s'.partialPackets = s.partialPackets
  packetDest : s'.packetDest = s.packetDest
  retired : ∀ c p, s'.retiredPackets c p =
    if c = f.cl ∧ p = f.pid then
      if f.tail then if f.head then s.retiredPackets c p else none
      else if f.head then some f else s.retiredPackets c p
    else s.retiredPackets c p

section Removes

variable {dest : ℤ} (h : Ledger s) (hdelivers : s.Delivers f dest) (hremoves : Removes f s s')

include h hdelivers hremoves

theorem Removes.mem_iff (g : TrafficFlit ι) :
    g ∈ s'.totalInFlightFlits ↔ g ∈ s.totalInFlightFlits ∧ g ≠ f := by
  rw [hremoves.total, h.mem_erase_iff hdelivers.sent.1]

theorem Removes.mem_old (hg : g ∈ s'.totalInFlightFlits) : g ∈ s.totalInFlightFlits :=
  ((hremoves.mem_iff h hdelivers g).mp hg).1

/-- Nothing comes behind a tail. -/
theorem Removes.pid_ne (htail : f.tail = true) (hg : g ∈ s'.totalInFlightFlits) : g.pid ≠ f.pid := by
  intro hpid
  have hf := hdelivers.sent.1
  obtain ⟨hold, hne⟩ := (hremoves.mem_iff h hdelivers g).mp hg
  exact hne (h.eq_of_id hf hold (le_antisymm (h.ends f hf htail g hold hpid)
    (hdelivers.le h hold hpid)))

/-- The head of a packet in flight is kept as it was, or has just come. -/
theorem Removes.retired_eq (hg : g ∈ s'.totalInFlightFlits) : s'.retiredPackets g.cl g.pid =
    if g.pid = f.pid ∧ f.head = true then some f else s.retiredPackets g.cl g.pid := by
  have hold := hremoves.mem_old h hdelivers hg
  rw [hremoves.retired]
  by_cases hpid : g.pid = f.pid
  · have htail : ¬ f.tail = true := fun htail => hremoves.pid_ne h hdelivers htail hg hpid
    have hcl := (h.same f hdelivers.sent.1 g hold hpid).2
    rw [if_pos ⟨hcl, hpid⟩, if_neg htail]
    simp only [hpid, true_and]
  · rw [if_neg fun hthis => hpid hthis.2, if_neg fun hthis => hpid hthis.1]

theorem Removes.measured_iff (g : TrafficFlit ι) :
    g ∈ s'.measuredInFlightFlits ↔ g ∈ s'.totalInFlightFlits ∧ g.record = true := by
  have hf := hdelivers.sent.1
  rw [hremoves.measured, hremoves.mem_iff h hdelivers, and_right_comm, ← h.measured]
  split
  next hrecord =>
    rw [Books.erase, List.mem_filter, decide_eq_true_eq]
    refine and_congr_right fun hg => not_congr ⟨fun heq => ?_, ?_⟩
    · exact h.eq_of_id hf ((h.measured g).mp hg).1 heq.2
    · rintro rfl
      exact ⟨rfl, rfl⟩
  next hrecord =>
    refine (and_iff_left_of_imp ?_).symm
    rintro hg rfl
    exact hrecord ((h.measured g).mp hg).2

theorem Removes.headed (hg : g ∈ s'.totalInFlightFlits) (hhead : g.head = false) :
    (∃ t ∈ s'.totalInFlightFlits, t.head = true ∧ t.pid = g.pid ∧ t.id < g.id) ∨
      ∃ t, s'.retiredPackets g.cl g.pid = some t ∧ t.head = true ∧ t.pid = g.pid := by
  have hold := hremoves.mem_old h hdelivers hg
  rw [hremoves.retired_eq h hdelivers hg]
  rcases h.headed g hold hhead with ⟨t, ht, hlead⟩ | ⟨t, ht, hlead⟩
  · by_cases hthis : t = f
    · subst hthis
      exact .inr ⟨t, if_pos ⟨hlead.2.1.symm, hlead.1⟩, hlead.1, hlead.2.1⟩
    · exact .inl ⟨t, (hremoves.mem_iff h hdelivers t).mpr ⟨ht, hthis⟩, hlead⟩
  · refine .inr ⟨t, ?_, hlead⟩
    rw [if_neg, ht]
    rintro ⟨hpid, hhead'⟩
    have hcl := (h.same f hdelivers.sent.1 g hold hpid).2
    rw [hcl, hpid, h.fresh f hdelivers.sent.1 hhead'] at ht
    cases ht

theorem Removes.fresh (hg : g ∈ s'.totalInFlightFlits) (hhead : g.head = true) :
    s'.retiredPackets g.cl g.pid = none := by
  have hf := hdelivers.sent.1
  obtain ⟨hold, hne⟩ := (hremoves.mem_iff h hdelivers g).mp hg
  rw [hremoves.retired_eq h hdelivers hg, if_neg, h.fresh g hold hhead]
  rintro ⟨hpid, hhead'⟩
  exact hne (h.eq_of_id hf hold (le_antisymm (h.leads g hold hhead f hf hpid.symm)
    (h.leads f hf hhead' g hold hpid)))

theorem Removes.tailed (hg : g ∈ s'.totalInFlightFlits) :
    ∃ t ∈ s'.totalInFlightFlits, t.tail = true ∧ t.pid = g.pid := by
  obtain ⟨t, ht, htail, hpid⟩ := h.tailed g (hremoves.mem_old h hdelivers hg)
  refine ⟨t, (hremoves.mem_iff h hdelivers t).mpr ⟨ht, ?_⟩, htail, hpid⟩
  rintro rfl
  exact hremoves.pid_ne h hdelivers htail hg hpid.symm

theorem Removes.kept {c : ι} {p : ℕ} {t : TrafficFlit ι} (ht : s'.retiredPackets c p = some t) :
    ∃ t ∈ s'.totalInFlightFlits, t.tail = true ∧ t.cl = c ∧ t.pid = p := by
  have hf := hdelivers.sent.1
  rw [hremoves.retired] at ht
  by_cases hthis : c = f.cl ∧ p = f.pid
  · -- a head is kept only while its tail is to come
    have hnot : ¬ f.tail = true := by
      intro htail
      rw [if_pos hthis, if_pos htail, hthis.1, hthis.2] at ht
      split at ht
      next hhead =>
        rw [h.fresh f hf hhead] at ht
        cases ht
      next => cases ht
    obtain ⟨t', ht', htail, hpid⟩ := h.tailed f hf
    refine ⟨t', (hremoves.mem_iff h hdelivers t').mpr ⟨ht', ?_⟩, htail, ?_⟩
    · rintro rfl
      exact hnot htail
    · have hcl := (h.same f hf t' ht' hpid).2
      exact ⟨hcl.trans hthis.1.symm, hpid.trans hthis.2.symm⟩
  · rw [if_neg hthis] at ht
    obtain ⟨t', ht', htail, hcl, hpid⟩ := h.kept c p t ht
    refine ⟨t', (hremoves.mem_iff h hdelivers t').mpr ⟨ht', ?_⟩, htail, hcl, hpid⟩
    rintro rfl
    exact hthis ⟨hcl.symm, hpid.symm⟩

/-- The books of the flits that stay in flight. -/
theorem Ledger.remove : Ledger s' where
  id_lt g hg := hremoves.curId ▸ h.id_lt g (hremoves.mem_old h hdelivers hg)
  pid_lt g hg := hremoves.curPid ▸ h.pid_lt g (hremoves.mem_old h hdelivers hg)
  retired_lt c p t ht := by
    obtain ⟨t', ht', -, -, hpid⟩ := hremoves.kept h hdelivers ht
    rw [hremoves.curPid, ← hpid]
    exact h.pid_lt t' (hremoves.mem_old h hdelivers ht')
  ids := hremoves.total ▸ h.ids.filter _
  measured := hremoves.measured_iff h hdelivers
  queued n c g hg := by
    rw [hremoves.queues] at hg
    obtain ⟨hold, hsrc, hcl⟩ := h.queued n c g hg
    refine ⟨(hremoves.mem_iff h hdelivers g).mpr ⟨hold, ?_⟩, hsrc, hcl⟩
    rintro rfl
    exact hdelivers.sent.2 (hsrc ▸ hcl ▸ hg)
  queue n c := hremoves.queues ▸ h.queue n c
  behind g g' hsent hg' hpid := by
    rw [hremoves.queues] at hg'
    refine h.behind g g' ⟨hremoves.mem_old h hdelivers hsent.1, ?_⟩ hg' hpid
    rw [← hremoves.queues]
    exact hsent.2
  same g hg g' hg' := h.same g (hremoves.mem_old h hdelivers hg) g' (hremoves.mem_old h hdelivers hg')
  dest g hg := hremoves.packetDest ▸ h.dest g (hremoves.mem_old h hdelivers hg)
  leads g hg hhead g' hg' :=
    h.leads g (hremoves.mem_old h hdelivers hg) hhead g' (hremoves.mem_old h hdelivers hg')
  ends g hg htail g' hg' :=
    h.ends g (hremoves.mem_old h hdelivers hg) htail g' (hremoves.mem_old h hdelivers hg')
  headed _ hg hhead := hremoves.headed h hdelivers hg hhead
  fresh _ hg hhead := hremoves.fresh h hdelivers hg hhead
  tailed _ hg := hremoves.tailed h hdelivers hg
  kept _ _ _ ht := hremoves.kept h hdelivers ht

end Removes

/-- The flit is crossed off, and these heads are kept. -/
def crossOff (s : Books ι) (f : TrafficFlit ι) (heads : ι → ℕ → Option (TrafficFlit ι)) : Books ι :=
  { s with
    totalInFlightFlits := erase s.totalInFlightFlits f
    measuredInFlightFlits :=
      if f.record then erase s.measuredInFlightFlits f else s.measuredInFlightFlits
    retiredPackets := heads }

theorem update_heads (heads : ι → ℕ → Option (TrafficFlit ι)) (x : Option (TrafficFlit ι)) (c : ι)
    (p : ℕ) : Function.update heads f.cl (Function.update (heads f.cl) f.pid x) c p =
      if c = f.cl ∧ p = f.pid then x else heads c p := by
  by_cases hc : c = f.cl
  · subst hc
    rw [Function.update_self, Function.update_apply]
    simp only [true_and]
  · rw [Function.update_of_ne hc, if_neg fun h => hc h.1]

/-- What is delivered passes the checks of `_RetireFlit`. -/
theorem exists_retireFlit {dest : ℤ} (h : Ledger s) (hdelivers : s.Delivers f dest) :
    ∃ heads, Removes f s (s.crossOff f heads) ∧ s.retireFlit f dest =
      .ok (if f.tail then (s.crossOff f heads).retirePacket f dest else s.crossOff f heads) := by
  have hf := hdelivers.sent.1
  have hcounts : ¬ counts s.totalInFlightFlits f = false := by
    rw [counts_of_mem hf]
    exact Bool.true_eq_false.mp
  have hmeasured : ¬ (f.record = true ∧ counts s.measuredInFlightFlits f = false) := by
    rintro ⟨hrecord, hcounts⟩
    rw [counts_of_mem ((h.measured f).mpr ⟨hf, hrecord⟩)] at hcounts
    cases hcounts
  have hdest : ¬ (f.head = true ∧ f.dest ≠ dest) := by
    rintro ⟨hhead, hne⟩
    exact hne ((h.dest f hf hhead).trans hdelivers.dest.symm)
  rw [retireFlit, if_neg hcounts, if_neg hmeasured, if_neg hdest]
  cases htail : f.tail with
  | false =>
      cases hhead : f.head with
      | false =>
          refine ⟨s.retiredPackets, ⟨rfl, rfl, rfl, rfl, rfl, rfl, fun c p => ?_⟩, rfl⟩
          simp [crossOff, htail, hhead]
      | true =>
          refine ⟨Function.update s.retiredPackets f.cl
            (Function.update (s.retiredPackets f.cl) f.pid (some f)),
            ⟨rfl, rfl, rfl, rfl, rfl, rfl, fun c p => ?_⟩, ?_⟩
          · simp [crossOff, htail, hhead, update_heads]
          · change Except.ok (keepHead _ f) = _
            rw [keepHead, if_pos (h.fresh f hf hhead)]
            rfl
  | true =>
      cases hhead : f.head with
      | false =>
          -- its head has been delivered before, since nothing of the packet is in flight before it
          obtain ⟨t, ht, hlead, hpid⟩ :
              ∃ t, s.retiredPackets f.cl f.pid = some t ∧ t.head = true ∧ t.pid = f.pid := by
            refine (h.headed f hf hhead).resolve_left ?_
            rintro ⟨t, ht, -, hpid, hlt⟩
            exact absurd (hdelivers.le h ht hpid) (not_le.mpr hlt)
          refine ⟨Function.update s.retiredPackets f.cl
            (Function.update (s.retiredPackets f.cl) f.pid none),
            ⟨rfl, rfl, rfl, rfl, rfl, rfl, fun c p => ?_⟩, ?_⟩
          · simp [crossOff, htail, hhead, update_heads]
          · simp only [takeHead, hhead, ht, hlead, hpid]
            rfl
      | true =>
          refine ⟨s.retiredPackets, ⟨rfl, rfl, rfl, rfl, rfl, rfl, fun c p => ?_⟩, ?_⟩
          · simp [crossOff, htail, hhead]
          · simp only [takeHead, hhead]
            rfl

theorem Ledger.retire {dest : ℤ} (h : Ledger s) (hdelivers : s.Delivers f dest)
    (hretire : s.retireFlit f dest = .ok s') : Ledger s' := by
  obtain ⟨heads, hremoves, heq⟩ := exists_retireFlit h hdelivers
  obtain rfl := Except.ok.inj (heq.symm.trans hretire)
  have hrest := h.remove hdelivers hremoves
  split
  · exact hrest.same_flits (retirePacket_same _ f dest)
  · exact hrest

/-! ### Runs -/

theorem ledger_start (ι : Type) : Ledger (start ι) where
  id_lt _ hf := absurd hf List.not_mem_nil
  pid_lt _ hf := absurd hf List.not_mem_nil
  retired_lt _ _ _ ht := by cases ht
  ids := .nil
  measured _ := by simp [start]
  queued _ _ _ hf := absurd hf List.not_mem_nil
  queue _ _ := .nil
  behind _ _ hsent := absurd hsent.1 List.not_mem_nil
  same _ hf := absurd hf List.not_mem_nil
  dest _ hf := absurd hf List.not_mem_nil
  leads _ hf := absurd hf List.not_mem_nil
  ends _ hf := absurd hf List.not_mem_nil
  headed _ hf := absurd hf List.not_mem_nil
  fresh _ hf := absurd hf List.not_mem_nil
  tailed _ hf := absurd hf List.not_mem_nil
  kept _ _ _ ht := by cases ht

/-- What a packet is entered with. -/
theorem exists_enter {stype time : ℤ} {draws : InjectDraws}
    (h : s.generatePacket config source stype cl time draws = .ok s') :
    ∃ drawn found p record, (config.books cl).getNextPacketSize draws.pct = .ok drawn ∧
      coreAt nodes config.core source = some true ∧
      s.plan config source stype cl time found = .ok p ∧ (0 ≤ p.dest ∧ p.dest < nodes) ∧
      s' = s.enter source cl ((config.books cl).sizeOf drawn p.type) { p with record := record } := by
  unfold generatePacket at h
  split at h
  next => cases h
  next hguard =>
    obtain ⟨drawn, hdrawn, h⟩ := bind_ok.mp h
    obtain ⟨found, -, h⟩ := bind_ok.mp h
    obtain ⟨p, hp, h⟩ := bind_ok.mp h
    split at h
    next => cases h
    next hrange =>
      cases h
      refine ⟨drawn, found, p, _, hdrawn, not_not.mp (not_or.mp hguard).2, hp, ?_, rfl⟩
      omega

theorem advance_same (config : BooksConfig ι nodes) (s : Books ι) (source stype : ℤ) (cl : ι) :
    SameFlits s (advance config s source stype cl) := by
  unfold advance
  split <;> exact ⟨rfl, rfl, rfl, rfl, rfl, rfl, rfl⟩

/-- A round does nothing, or it issues a packet or none. -/
theorem injectRound_cases {draws : InjectDraws}
    (h : s.injectRound config source cl draws = .ok s') :
    s' = s ∨ ∃ stype issued next, issue config s source cl draws = .ok (stype, issued) ∧
      (stype = 0 ∧ next = issued ∨ stype ≠ 0 ∧ ∃ time,
        generatePacket config issued source stype cl time draws = .ok next) ∧
      s' = advance config next source stype cl := by
  unfold injectRound at h
  split at h
  next =>
    cases h
    exact .inl rfl
  next =>
    obtain ⟨⟨stype, issued⟩, hissue, h⟩ := bind_ok.mp h
    obtain ⟨next, hnext, h⟩ := bind_ok.mp h
    refine .inr ⟨stype, issued, next, hissue, ?_, (Except.ok.inj h).symm⟩
    unfold generateIssued at hnext
    split at hnext
    next hsome => exact .inr ⟨hsome, _, hnext⟩
    next hzero => exact .inl ⟨not_not.mp hzero, (Except.ok.inj hnext).symm⟩

theorem Ledger.injectRound {draws : InjectDraws} (h : Ledger s)
    (hround : s.injectRound config source cl draws = .ok s') : Ledger s' := by
  rcases injectRound_cases hround with rfl | ⟨stype, issued, next, hissue, hnext, rfl⟩
  · exact h
  · have hissued := h.same_flits (issue_issues hissue).same
    have hkept : Ledger next := by
      rcases hnext with ⟨-, rfl⟩ | ⟨-, time, hgenerate⟩
      · exact hissued
      · obtain ⟨drawn, found, p, record, -, -, -, -, rfl⟩ := exists_enter hgenerate
        exact hissued.enter _ _ _ _
    exact hkept.same_flits (advance_same config next source stype cl)

theorem Ledger.perform {e : BooksEvent ι} (h : Ledger s) (hmeets : s.Meets e)
    (hperform : s.perform config e = .ok s') : Ledger s' := by
  cases e with
  | inject source cl draws => exact h.injectRound hperform
  | send source cl =>
      cases hperform
      exact h.send source cl
  | retire f dest => exact h.retire hmeets hperform
  | tick =>
      cases hperform
      exact h.same_flits ⟨rfl, rfl, rfl, rfl, rfl, rfl, rfl⟩
  | simState state drainTime =>
      cases hperform
      exact h.same_flits ⟨rfl, rfl, rfl, rfl, rfl, rfl, rfl⟩
  | batch =>
      cases hperform
      exact h.same_flits ⟨rfl, rfl, rfl, rfl, rfl, rfl, rfl⟩

theorem ledger_of_reached (h : Reached config s) : Ledger s :=
  h.invariant (ledger_start ι) fun _ _ _ hs hmeets hperform => hs.perform hmeets hperform

/-- In every run `_RetireFlit` takes what the network delivers, and when no flit is in flight
no head of a packet is kept. -/
theorem retireFlit_takes (h : Reached config s) :
    (∀ f dest, s.Delivers f dest → ∃ s', s.retireFlit f dest = .ok s') ∧
      (s.totalInFlightFlits = [] → ∀ c p, s.retiredPackets c p = none) := by
  have hledger := ledger_of_reached h
  constructor
  · intro f dest hdelivers
    obtain ⟨heads, -, heq⟩ := exists_retireFlit hledger hdelivers
    exact ⟨_, heq⟩
  · intro hempty c p
    refine Option.eq_none_iff_forall_ne_some.mpr fun t ht => ?_
    obtain ⟨t', ht', -⟩ := hledger.kept c p t ht
    rw [hempty] at ht'
    cases ht'

end Steps

/-! ### An example -/

/-- Four nodes in a batch of ten packets. They send packets of two flits, one at a time. -/
def fourNodes : BooksConfig Unit 4 where
  traffic _ := bitCompOfFour
  core _ := true
  books _ := {
    useReadWrite := false
    measureStats := true
    readRequestSize := 1
    readReplySize := 1
    writeRequestSize := 1
    writeReplySize := 1
    packetSize := [(2, 1)] }
  includeQueuing := true
  batch := some ⟨1, 10⟩

/-- Node 1 has generated a packet for node 2. -/
def firstPacket : Books Unit :=
  advance fourNodes ((((start Unit).countOutstanding 1).countPacket 1 2).2.enter 1 () 2
    ⟨.any, 2, 0, false, []⟩) 1 2 ()

def firstHead : TrafficFlit Unit := ⟨0, 0, 1, 2, (), .any, true, false, 0, false⟩

theorem reached_firstHead : Reached fourNodes (firstPacket.send 1 ()) := by
  have hfirst : (start Unit).injectRound fourNodes 1 () ⟨true, false, 0, 0, [2]⟩ =
      .ok firstPacket := rfl
  have hgenerated : Reached fourNodes firstPacket :=
    .step (a := .inject 1 () ⟨true, false, 0, 0, [2]⟩) .refl trivial hfirst
  exact .step (a := .send 1 ()) hgenerated trivial rfl

/-- The network delivers the head of the first packet. -/
theorem delivers_firstHead : (firstPacket.send 1 ()).Delivers firstHead 2 where
  sent := ⟨List.mem_cons_self, by decide⟩
  first _ _ _ := Nat.zero_le _
  dest := rfl

theorem retireFlit_takes_firstHead :
    ∃ s', (firstPacket.send 1 ()).retireFlit firstHead 2 = .ok s' :=
  (retireFlit_takes reached_firstHead).1 firstHead 2 delivers_firstHead

end Books

end Flyover.Traffic
