import Flyover.Buffer.Pool
import Flyover.Traffic.Ledger

/-!
# Outstanding requests

The requests of a node that are outstanding are those in flight, those whose replies wait to
be sent, and those whose replies are in flight. A batch never has more of them than it may.
In plain mode `TrafficManager` counts one at every test of the injection process, so this is
about `BatchTrafficManager` and about traffic of requests and replies.
-/

namespace Flyover.Traffic

/-- Packets have flits. -/
structure ClassBooks.Positive (b : ClassBooks) : Prop where
  readRequest : 0 < b.readRequestSize
  readReply : 0 < b.readReplySize
  writeRequest : 0 < b.writeRequestSize
  writeReply : 0 < b.writeReplySize
  packetSize : ∀ size ∈ b.packetSize, 0 < size.1

/-- Each request is counted once. -/
def BooksConfig.Counts {ι : Type} {nodes : ℕ} (config : BooksConfig ι nodes) : Prop :=
  config.batch ≠ none ∨ ∀ cl, (config.books cl).useReadWrite = true

namespace ClassBooks

variable {b : ClassBooks}

theorem mem_of_pickSize {sizes : List (ℕ × ℤ)} {pct : ℤ} {n : ℕ} (h : pickSize sizes pct = .ok n) :
    ∃ size ∈ sizes, size.1 = n := by
  induction sizes generalizing pct with
  | nil => cases h
  | cons first rest ih =>
      cases rest with
      | nil =>
          rw [pickSize] at h
          split at h
          next => exact ⟨first, List.mem_cons_self, Except.ok.inj h⟩
          next => cases h
      | cons second rest =>
          rw [pickSize] at h
          · split at h
            next => exact ⟨first, List.mem_cons_self, Except.ok.inj h⟩
            next =>
              obtain ⟨size, hsize, heq⟩ := ih h
              exact ⟨size, List.mem_cons_of_mem _ hsize, heq⟩
          · exact List.cons_ne_nil second rest

theorem Positive.getNextPacketSize (h : b.Positive) {pct : ℤ} {n : ℕ}
    (hn : b.getNextPacketSize pct = .ok n) : 0 < n := by
  unfold ClassBooks.getNextPacketSize at hn
  split at hn
  next only heq =>
    cases hn
    exact h.packetSize only (heq ▸ List.mem_singleton_self _)
  next =>
    obtain ⟨size, hsize, rfl⟩ := mem_of_pickSize hn
    exact h.packetSize size hsize

theorem Positive.sizeOf (h : b.Positive) {n : ℕ} (hn : 0 < n) (type : PacketType) :
    0 < b.sizeOf n type := by
  cases type with
  | any => exact hn
  | readRequest => exact h.readRequest
  | writeRequest => exact h.writeRequest
  | readReply => exact h.readReply
  | writeReply => exact h.writeReply

end ClassBooks

namespace Books

variable {ι : Type} {nodes : ℕ} {config : BooksConfig ι nodes} {s s' : Books ι} {f : TrafficFlit ι}
  {source : ℤ} {cl : ι}

/-- The node whose request a packet of this type belongs to. -/
def requesterOf (src dest : ℤ) : PacketType → ℤ
  | .readReply | .writeReply => dest
  | _ => src

def requester (s : Books ι) (f : TrafficFlit ι) : ℤ :=
  requesterOf f.src (s.packetDest f.pid) f.type

/-- The packets in flight for requests of a node. -/
def inFlightFor (s : Books ι) (n : ℤ) : ℤ :=
  s.totalInFlightFlits.countP fun f => decide (f.tail = true ∧ s.requester f = n)

/-- The replies that are waiting for requests of a node. -/
def waitingFor (nodes : ℕ) (pending : ℤ → List ReplyInfo) (n : ℤ) : ℤ :=
  ∑ m : Fin nodes, ((pending m).countP fun rinfo => decide (rinfo.source = n) : ℤ)

/-- What is counted is what is there. -/
structure Balanced (nodes : ℕ) (s : Books ι) : Prop where
  outstanding : ∀ n, s.requestsOutstanding n = s.inFlightFor n + waitingFor nodes s.repliesPending n
  dest : ∀ f ∈ s.totalInFlightFlits, 0 ≤ s.packetDest f.pid ∧ s.packetDest f.pid < nodes

/-- No more requests of a node are outstanding than a batch may have. -/
def WithinBatch (config : BooksConfig ι nodes) (s : Books ι) : Prop :=
  ∀ batch, config.batch = some batch → 0 < batch.maxOutstanding →
    ∀ n, s.requestsOutstanding n ≤ batch.maxOutstanding

theorem WithinBatch.of_le (h : WithinBatch config s)
    (hle : ∀ n, s'.requestsOutstanding n ≤ s.requestsOutstanding n) : WithinBatch config s' :=
  fun batch hbatch hmax n => (hle n).trans (h batch hbatch hmax n)

theorem waitingFor_update {pending : ℤ → List ReplyInfo} {m : ℤ} (hm : 0 ≤ m ∧ m < nodes)
    (replies : List ReplyInfo) (n : ℤ) :
    waitingFor nodes (Function.update pending m replies) n = waitingFor nodes pending n +
      ((replies.countP fun rinfo => decide (rinfo.source = n) : ℤ) -
        (pending m).countP fun rinfo => decide (rinfo.source = n)) := by
  obtain ⟨o, rfl⟩ : ∃ o : Fin nodes, (o : ℤ) = m :=
    ⟨⟨m.toNat, by omega⟩, Int.toNat_of_nonneg hm.1⟩
  refine (Pool.sum_of_eq_off (o := o) (f := fun u : Fin nodes =>
    ((pending u).countP fun rinfo => decide (rinfo.source = n) : ℤ)) fun u hu => ?_).trans ?_
  · have hne : (u : ℤ) ≠ o := fun heq => hu (Fin.ext (Int.ofNat_inj.mp heq))
    rw [Function.update_of_ne hne]
  · rw [Function.update_self]
    rfl

theorem SameFlits.inFlightFor (h : SameFlits s s') (n : ℤ) : s'.inFlightFor n = s.inFlightFor n := by
  unfold Books.inFlightFor requester
  rw [h.total, h.packetDest]

theorem Balanced.same (hbalanced : Balanced nodes s) (h : SameFlits s s')
    (houtstanding : s'.requestsOutstanding = s.requestsOutstanding)
    (hpending : s'.repliesPending = s.repliesPending) : Balanced nodes s' where
  outstanding n := by
    rw [houtstanding, h.inFlightFor, hpending]
    exact hbalanced.outstanding n
  dest := by
    rw [h.total, h.packetDest]
    exact hbalanced.dest

/-! ### A packet is issued -/

/-- What `_IssuePacket` counts where each request is counted once. -/
inductive Issued (config : BooksConfig ι nodes) (s : Books ι) (source : ℤ) (cl : ι) (stype : ℤ)
    (issued : Books ι) : Prop where
  | nothing : stype = 0 → issued.requestsOutstanding = s.requestsOutstanding →
      Issued config s source cl stype issued
  | reply : stype = -1 → (config.books cl).useReadWrite = true →
      issued.requestsOutstanding = s.requestsOutstanding → Issued config s source cl stype issued
  | request : 0 < stype → issued.requestsOutstanding =
        Function.update s.requestsOutstanding source (s.requestsOutstanding source + 1) →
      Room config s source → Issued config s source cl stype issued

theorem countPacket_outstanding (s : Books ι) (source result : ℤ) :
    (s.countPacket source result).2.requestsOutstanding = s.requestsOutstanding := by
  unfold countPacket
  split <;> rfl

theorem countPacket_pending (s : Books ι) (source result : ℤ) :
    (s.countPacket source result).2.repliesPending = s.repliesPending := by
  unfold countPacket
  split <;> rfl

theorem advance_outstanding (config : BooksConfig ι nodes) (s : Books ι) (source stype : ℤ)
    (cl : ι) [DecidableEq ι] :
    (advance config s source stype cl).requestsOutstanding = s.requestsOutstanding := by
  unfold advance
  split <;> rfl

theorem advance_pending (config : BooksConfig ι nodes) (s : Books ι) (source stype : ℤ) (cl : ι)
    [DecidableEq ι] : (advance config s source stype cl).repliesPending = s.repliesPending := by
  unfold advance
  split <;> rfl

theorem Issues.issued {result : ℤ × Books ι} (hcounts : config.Counts)
    (hsizes : ∀ cl, (config.books cl).Positive) (h : Issues config s source cl result) :
    Issued config s source cl result.1 result.2 := by
  cases h with
  | nothing => exact .nothing rfl (countPacket_outstanding _ _ _)
  | reply hrw => exact .reply rfl hrw (countPacket_outstanding _ _ _)
  | request hx hroom => exact .request hx (countPacket_outstanding _ _ _) hroom
  | packet hsize hroom =>
      exact .request (Int.natCast_pos.mpr ((hsizes cl).getNextPacketSize hsize))
        (countPacket_outstanding _ _ _) hroom
  | test hplain hrw =>
      have hall := hcounts.resolve_left (not_not.mpr hplain) cl
      rw [hrw] at hall
      cases hall

theorem Issues.pending {result : ℤ × Books ι} (h : Issues config s source cl result) :
    result.2.repliesPending = s.repliesPending := by
  cases h with
  | nothing => exact countPacket_pending s source _
  | reply _ => exact countPacket_pending s source _
  | request _ _ => exact countPacket_pending _ source _
  | packet _ _ => exact countPacket_pending _ source _
  | test _ _ => exact countPacket_pending _ source _

theorem Issued.withinBatch {stype : ℤ} {issued : Books ι} (h : WithinBatch config s)
    (hissued : Issued config s source cl stype issued) : WithinBatch config issued := by
  cases hissued with
  | nothing _ houtstanding => exact h.of_le fun n => (congrFun houtstanding n).le
  | reply _ _ houtstanding => exact h.of_le fun n => (congrFun houtstanding n).le
  | request _ houtstanding hroom =>
      intro batch hbatch hmax n
      rw [houtstanding, Function.update_apply]
      split
      · have hlt := (of_decide_eq_true (hroom batch hbatch)).2.resolve_left (not_le.mpr hmax)
        exact hlt
      · exact h batch hbatch hmax n

/-! ### A packet is generated -/

/-- A plan of a packet is for a request of its source, or takes the first reply that waits. -/
inductive Plans (s : Books ι) (source stype : ℤ) (p : PacketPlan) : Prop where
  | own : (0 < stype ∨ p.type = .any) → p.replies = s.repliesPending source →
      requesterOf source p.dest p.type = source → Plans s source stype p
  | reply {rinfo : ReplyInfo} : stype ≤ 0 → s.repliesPending source = rinfo :: p.replies →
      p.dest = rinfo.source → requesterOf source p.dest p.type = p.dest → Plans s source stype p

theorem plan_plans {stype time found : ℤ} {p : PacketPlan}
    (h : s.plan config source stype cl time found = .ok p) :
    Plans s source stype p ∧ (p.type = .any → (config.books cl).useReadWrite = false) := by
  unfold plan at h
  split at h
  next hrw =>
    split at h
    next hpos =>
      split at h
      next =>
        cases h
        exact ⟨.own (.inl hpos) rfl rfl, fun hany => (by cases hany)⟩
      next =>
        split at h
        next =>
          cases h
          exact ⟨.own (.inl hpos) rfl rfl, fun hany => (by cases hany)⟩
        next => cases h
    next hneg =>
      split at h
      next => cases h
      next rinfo rest heq =>
        split at h
        next =>
          cases h
          exact ⟨.reply (not_lt.mp hneg) heq rfl rfl, fun hany => (by cases hany)⟩
        next =>
          cases h
          exact ⟨.reply (not_lt.mp hneg) heq rfl rfl, fun hany => (by cases hany)⟩
        next => cases h
  next hrw =>
    cases h
    exact ⟨.own (.inr rfl) rfl rfl, fun _ => Bool.eq_false_of_not_eq_true hrw⟩

theorem countP_packetFlits {size id pid : ℕ} {p : PacketPlan} (hsize : 0 < size)
    (P : TrafficFlit ι → Prop) [DecidablePred P] (x : Prop) [Decidable x]
    (hP : ∀ f ∈ packetFlits source cl id pid size p, P f ↔ x) :
    ((packetFlits source cl id pid size p).countP fun f => decide (f.tail = true ∧ P f)) =
      if x then 1 else 0 := by
  obtain ⟨last, rfl⟩ := Nat.exists_eq_succ_of_ne_zero hsize.ne'
  have htails : ∀ f ∈ packetFlits source cl id pid (last + 1) p,
      (decide (f.tail = true ∧ P f) = true ↔ decide (f.id = id + last ∧ x) = true) := by
    intro f hf
    have hx := hP f hf
    obtain ⟨i, hi, rfl⟩ := mem_packetFlits.mp hf
    simp only [decide_eq_true_eq, Nat.add_left_cancel_iff, Nat.add_right_cancel_iff] at hx ⊢
    rw [hx]
  rw [List.countP_congr htails, packetFlits, List.range_succ, List.map_append, List.countP_append,
    List.countP_eq_zero.mpr, Nat.zero_add]
  · simp
  · intro f hf
    obtain ⟨i, hi, rfl⟩ := List.mem_map.mp hf
    have hlt := List.mem_range.mp hi
    simp only [decide_eq_true_eq, Nat.add_left_cancel_iff]
    exact fun h => hlt.ne h.1

/-! ### A packet is over -/

theorem update_sub_one (counts : ℤ → ℤ) (m n : ℤ) :
    Function.update counts m (counts m - 1) n = counts n - if m = n then 1 else 0 := by
  rw [Function.update_apply]
  by_cases hn : n = m
  · rw [if_pos hn, if_pos hn.symm, hn]
  · rw [if_neg hn, if_neg fun heq => hn heq.symm, sub_zero]

/-- A packet that is over is no longer counted, or a reply waits for it. -/
theorem retirePacket_balance {dest : ℤ} (hdest : 0 ≤ dest ∧ dest < nodes) (n : ℤ) :
    (s.retirePacket f dest).requestsOutstanding n -
        waitingFor nodes (s.retirePacket f dest).repliesPending n =
      s.requestsOutstanding n - waitingFor nodes s.repliesPending n -
        if requesterOf f.src dest f.type = n then 1 else 0 := by
  have hreply : ∀ rinfo : ReplyInfo, waitingFor nodes (Function.update s.repliesPending dest
      (s.repliesPending dest ++ [rinfo])) n =
        waitingFor nodes s.repliesPending n + if rinfo.source = n then 1 else 0 := by
    intro rinfo
    rw [waitingFor_update hdest, List.countP_append, List.countP_singleton]
    simp only [decide_eq_true_eq]
    split <;> omega
  unfold retirePacket
  cases f.type with
  | any =>
      change Function.update s.requestsOutstanding f.src _ n - _ = _
      rw [update_sub_one]
      exact sub_right_comm _ _ _
  | readRequest =>
      change _ - waitingFor nodes (Function.update s.repliesPending dest _) n = _
      rw [hreply]
      exact sub_add_eq_sub_sub _ _ _
  | writeRequest =>
      change _ - waitingFor nodes (Function.update s.repliesPending dest _) n = _
      rw [hreply]
      exact sub_add_eq_sub_sub _ _ _
  | readReply =>
      change Function.update s.requestsOutstanding dest _ n - _ = _
      rw [update_sub_one]
      exact sub_right_comm _ _ _
  | writeReply =>
      change Function.update s.requestsOutstanding dest _ n - _ = _
      rw [update_sub_one]
      exact sub_right_comm _ _ _

theorem retirePacket_outstanding_le (s : Books ι) (f : TrafficFlit ι) (dest n : ℤ) :
    (s.retirePacket f dest).requestsOutstanding n ≤ s.requestsOutstanding n := by
  have hless : ∀ m : ℤ, Function.update s.requestsOutstanding m (s.requestsOutstanding m - 1) n ≤
      s.requestsOutstanding n := by
    intro m
    rw [update_sub_one]
    exact Int.sub_le_self _ (by split <;> decide)
  unfold retirePacket
  cases f.type with
  | any => exact hless f.src
  | readRequest => exact le_rfl
  | writeRequest => exact le_rfl
  | readReply => exact hless dest
  | writeReply => exact hless dest

/-! ### The steps -/

variable [DecidableEq ι]

section Enter

variable {size : ℕ} {p : PacketPlan}

theorem enter_packetDest (h : Ledger s) (hf : f ∈ s.totalInFlightFlits) :
    (s.enter source cl size p).packetDest f.pid = s.packetDest f.pid :=
  Function.update_of_ne (h.pid_lt f hf).ne _ _

/-- One packet more is in flight for its requester. -/
theorem enter_inFlightFor (h : Ledger s) (hsize : 0 < size) (n : ℤ) :
    (s.enter source cl size p).inFlightFor n =
      s.inFlightFor n + if requesterOf source p.dest p.type = n then 1 else 0 := by
  have hnew : ∀ f ∈ packetFlits source cl s.curId s.curPid size p,
      (s.enter source cl size p).requester f = n ↔ requesterOf source p.dest p.type = n := by
    intro f hf
    obtain ⟨i, hi, rfl⟩ := mem_packetFlits.mp hf
    rw [requester]
    change requesterOf source (Function.update s.packetDest s.curPid p.dest s.curPid) p.type = n ↔ _
    rw [Function.update_self]
  have hold : ∀ f ∈ s.totalInFlightFlits,
      (decide (f.tail = true ∧ (s.enter source cl size p).requester f = n) = true ↔
        decide (f.tail = true ∧ s.requester f = n) = true) := by
    intro f hf
    rw [requester, requester, enter_packetDest h hf]
  unfold inFlightFor
  change (List.countP _ (s.totalInFlightFlits ++ _) : ℤ) = _
  rw [List.countP_append, List.countP_congr hold, countP_packetFlits hsize _ _ hnew]
  push_cast
  rfl

theorem enter_dest (hdest : ∀ f ∈ s.totalInFlightFlits, 0 ≤ s.packetDest f.pid ∧
      s.packetDest f.pid < nodes) (h : Ledger s) (hp : 0 ≤ p.dest ∧ p.dest < nodes)
    (hf : f ∈ (s.enter source cl size p).totalInFlightFlits) :
    0 ≤ (s.enter source cl size p).packetDest f.pid ∧
      (s.enter source cl size p).packetDest f.pid < nodes := by
  rcases mem_enter.mp hf with hold | hnew
  · rw [enter_packetDest h hold]
    exact hdest f hold
  · obtain ⟨i, hi⟩ := exists_new hnew
    change 0 ≤ Function.update s.packetDest s.curPid p.dest f.pid ∧
      Function.update s.packetDest s.curPid p.dest f.pid < nodes
    rw [hi.pid, Function.update_self]
    exact hp

end Enter

/-- The packet that was issued is in flight. -/
theorem Balanced.generate {stype time : ℤ} {issued next : Books ι} {draws : InjectDraws}
    (hbalanced : Balanced nodes s) (hledger : Ledger s) (hsizes : ∀ cl, (config.books cl).Positive)
    (hissued : Issued config s source cl stype issued) (hsame : SameFlits s issued)
    (hpending : issued.repliesPending = s.repliesPending) (hsome : stype ≠ 0)
    (h : issued.generatePacket config source stype cl time draws = .ok next) :
    Balanced nodes next := by
  obtain ⟨drawn, found, p, record, hdrawn, hcore, hplan, hrange, rfl⟩ := exists_enter h
  have hledger' := hledger.same_flits hsame
  have hsize : 0 < (config.books cl).sizeOf drawn p.type :=
    (hsizes cl).sizeOf ((hsizes cl).getNextPacketSize hdrawn) p.type
  have hdest : ∀ f ∈ issued.totalInFlightFlits, 0 ≤ issued.packetDest f.pid ∧
      issued.packetDest f.pid < nodes := by
    rw [hsame.total, hsame.packetDest]
    exact hbalanced.dest
  obtain ⟨hplans, hany⟩ := plan_plans hplan
  refine ⟨fun n => ?_, fun f hf => enter_dest hdest hledger' hrange hf⟩
  have hinFlight : (issued.enter source cl ((config.books cl).sizeOf drawn p.type)
        { p with record := record }).inFlightFor n =
      issued.inFlightFor n + if requesterOf source p.dest p.type = n then 1 else 0 :=
    enter_inFlightFor hledger' hsize n
  have hwaiting : waitingFor nodes (Function.update issued.repliesPending source p.replies) n = _ :=
    waitingFor_update (coreOn_of_coreAt hcore).1 p.replies n
  rw [hsame.inFlightFor] at hinFlight
  change issued.requestsOutstanding n = inFlightFor _ n +
    waitingFor nodes (Function.update issued.repliesPending source p.replies) n
  rw [hinFlight, hwaiting, hpending]
  have hold := hbalanced.outstanding n
  cases hissued with
  | nothing hnone _ => exact absurd hnone hsome
  | reply hreply hrw houtstanding =>
      rcases hplans with ⟨hown, -, -⟩ | ⟨-, hreplies, hto, hrequester⟩
      · exfalso
        rcases hown with hpos | htype
        · omega
        · rw [hany htype] at hrw
          cases hrw
      · -- the reply that was waiting is in flight
        rw [hpending] at hreplies
        rw [houtstanding, hreplies, hrequester, hto, List.countP_cons]
        simp only [decide_eq_true_eq]
        split <;> omega
  | request hpos houtstanding _ =>
      rcases hplans with ⟨-, hreplies, hrequester⟩ | ⟨hneg, -, -, -⟩
      · rw [hpending] at hreplies
        rw [houtstanding, hreplies, hrequester, Function.update_apply]
        by_cases hn : n = source
        · rw [if_pos hn, if_pos hn.symm, ← hn]
          omega
        · rw [if_neg hn, if_neg fun heq => hn heq.symm]
          omega
      · exact absurd hpos (not_lt.mpr hneg)

theorem Balanced.injectRound {draws : InjectDraws} (hbalanced : Balanced nodes s)
    (hledger : Ledger s) (hcounts : config.Counts) (hsizes : ∀ cl, (config.books cl).Positive)
    (h : s.injectRound config source cl draws = .ok s') : Balanced nodes s' := by
  rcases injectRound_cases h with rfl | ⟨stype, issued, next, hissue, hnext, rfl⟩
  · exact hbalanced
  · have hissues := issue_issues hissue
    have hissued : Issued config s source cl stype issued := hissues.issued hcounts hsizes
    have hkept : Balanced nodes next := by
      rcases hnext with ⟨rfl, rfl⟩ | ⟨hsome, time, hgenerate⟩
      · cases hissued with
        | nothing _ houtstanding => exact hbalanced.same hissues.same houtstanding hissues.pending
        | reply hreply _ _ => cases hreply
        | request hpos _ _ => exact absurd hpos (lt_irrefl 0)
      · exact hbalanced.generate hledger hsizes hissued hissues.same hissues.pending hsome hgenerate
    exact hkept.same (advance_same config next source stype cl)
      (advance_outstanding config next source stype cl) (advance_pending config next source stype cl)

/-- A flit that is crossed off is not in flight for anybody. -/
theorem crossOff_inFlightFor (h : Ledger s) (hf : f ∈ s.totalInFlightFlits)
    (heads : ι → ℕ → Option (TrafficFlit ι)) (n : ℤ) : (s.crossOff f heads).inFlightFor n =
      s.inFlightFor n - if f.tail = true ∧ s.requester f = n then 1 else 0 := by
  have hnodup : s.totalInFlightFlits.Nodup := h.ids.imp fun hlt heq => by
    rw [heq] at hlt
    exact lt_irrefl _ hlt
  have herase : Books.erase s.totalInFlightFlits f = s.totalInFlightFlits.erase f := by
    rw [hnodup.erase_eq_filter, Books.erase]
    refine List.filter_congr fun g hg => ?_
    rw [Bool.eq_iff_iff, decide_eq_true_eq, bne_iff_ne]
    refine not_congr ⟨fun heq => h.eq_of_id hf hg heq.2, ?_⟩
    rintro rfl
    exact ⟨rfl, rfl⟩
  unfold inFlightFor
  change ((Books.erase s.totalInFlightFlits f).countP
    (fun f => decide (f.tail = true ∧ s.requester f = n)) : ℤ) = _
  rw [herase, (List.perm_cons_erase hf).countP_eq, List.countP_cons]
  simp only [decide_eq_true_eq]
  split
  · push_cast
    ring
  · push_cast
    ring

theorem Balanced.retire {dest : ℤ} (hbalanced : Balanced nodes s) (h : Ledger s)
    (hdelivers : s.Delivers f dest) (hretire : s.retireFlit f dest = .ok s') :
    Balanced nodes s' := by
  obtain ⟨heads, hremoves, heq⟩ := exists_retireFlit h hdelivers
  obtain rfl := Except.ok.inj (heq.symm.trans hretire)
  have hcross := crossOff_inFlightFor h hdelivers.sent.1 heads
  have hrest : ∀ g ∈ (s.crossOff f heads).totalInFlightFlits,
      0 ≤ s.packetDest g.pid ∧ s.packetDest g.pid < nodes :=
    fun g hg => hbalanced.dest g (hremoves.mem_old h hdelivers hg)
  split
  next htail =>
    have hsame := retirePacket_same (s.crossOff f heads) f dest
    have hdest : 0 ≤ dest ∧ dest < nodes := hdelivers.dest ▸ hbalanced.dest f hdelivers.sent.1
    refine ⟨fun n => ?_, ?_⟩
    · have hbalance := retirePacket_balance (s := s.crossOff f heads) (f := f) hdest n
      have hold := hbalanced.outstanding n
      rw [hsame.inFlightFor, hcross, requester, ← hdelivers.dest]
      simp only [htail, true_and]
      change _ = s.requestsOutstanding n - waitingFor nodes s.repliesPending n - _ at hbalance
      linarith
    · rw [hsame.total, hsame.packetDest]
      exact hrest
  next htail =>
    refine ⟨fun n => ?_, hrest⟩
    rw [hcross, if_neg fun hthis => htail hthis.1, sub_zero]
    exact hbalanced.outstanding n

theorem WithinBatch.injectRound {draws : InjectDraws} (hbatch : WithinBatch config s)
    (hcounts : config.Counts) (hsizes : ∀ cl, (config.books cl).Positive)
    (h : s.injectRound config source cl draws = .ok s') : WithinBatch config s' := by
  rcases injectRound_cases h with rfl | ⟨stype, issued, next, hissue, hnext, rfl⟩
  · exact hbatch
  · have hissued : Issued config s source cl stype issued :=
      (issue_issues hissue).issued hcounts hsizes
    have hnext : next.requestsOutstanding = issued.requestsOutstanding := by
      rcases hnext with ⟨-, rfl⟩ | ⟨-, time, hgenerate⟩
      · rfl
      · obtain ⟨drawn, found, p, record, -, -, -, -, rfl⟩ := exists_enter hgenerate
        rfl
    refine (hissued.withinBatch hbatch).of_le fun n => ?_
    rw [advance_outstanding, hnext]

theorem WithinBatch.retire {dest : ℤ} (hbatch : WithinBatch config s) (h : Ledger s)
    (hdelivers : s.Delivers f dest) (hretire : s.retireFlit f dest = .ok s') :
    WithinBatch config s' := by
  obtain ⟨heads, -, heq⟩ := exists_retireFlit h hdelivers
  obtain rfl := Except.ok.inj (heq.symm.trans hretire)
  refine hbatch.of_le fun n => ?_
  split
  · exact retirePacket_outstanding_le (s.crossOff f heads) f dest n
  · exact le_rfl

/-! ### Runs -/

theorem balanced_start (ι : Type) (nodes : ℕ) : Balanced nodes (start ι) where
  outstanding _ := by simp [start, inFlightFor, waitingFor]
  dest _ hf := absurd hf List.not_mem_nil

theorem balanced_of_reached (hcounts : config.Counts) (hsizes : ∀ cl, (config.books cl).Positive)
    (h : Reached config s) : Ledger s ∧ Balanced nodes s ∧ WithinBatch config s := by
  apply h.invariant
  · exact ⟨ledger_start ι, balanced_start ι nodes, fun _ _ hmax _ => hmax.le⟩
  · rintro s e s' ⟨hledger, hbalanced, hbatch⟩ hmeets hperform
    refine ⟨hledger.perform hmeets hperform, ?_⟩
    cases e with
    | inject source cl draws =>
        exact ⟨hbalanced.injectRound hledger hcounts hsizes hperform,
          hbatch.injectRound hcounts hsizes hperform⟩
    | send source cl =>
        cases hperform
        exact ⟨⟨hbalanced.outstanding, hbalanced.dest⟩, hbatch⟩
    | retire f dest =>
        exact ⟨hbalanced.retire hledger hmeets hperform, hbatch.retire hledger hmeets hperform⟩
    | tick =>
        cases hperform
        exact ⟨⟨hbalanced.outstanding, hbalanced.dest⟩, hbatch⟩
    | simState state drainTime =>
        cases hperform
        exact ⟨⟨hbalanced.outstanding, hbalanced.dest⟩, hbatch⟩
    | batch =>
        cases hperform
        exact ⟨⟨hbalanced.outstanding, hbalanced.dest⟩, hbatch⟩

/-- In every run the requests of a node that are outstanding are in flight, or their replies
wait or are in flight, and in a batch there are no more than it may have. -/
theorem outstanding_counted (hcounts : config.Counts) (hsizes : ∀ cl, (config.books cl).Positive)
    (h : Reached config s) (n : ℤ) :
    s.requestsOutstanding n = s.inFlightFor n + waitingFor nodes s.repliesPending n ∧
      ∀ batch, config.batch = some batch → 0 < batch.maxOutstanding →
        s.requestsOutstanding n ≤ batch.maxOutstanding := by
  obtain ⟨-, hbalanced, hbatch⟩ := balanced_of_reached hcounts hsizes h
  exact ⟨hbalanced.outstanding n, fun batch hbatch' hmax => hbatch batch hbatch' hmax n⟩

/-- The request of the node that has sent the head of its packet. -/
theorem outstanding_counted_firstPacket :
    (firstPacket.send 1 ()).requestsOutstanding 1 = 1 ∧
      (firstPacket.send 1 ()).requestsOutstanding 1 =
        (firstPacket.send 1 ()).inFlightFor 1 +
          waitingFor 4 (firstPacket.send 1 ()).repliesPending 1 := by
  have hsizes : ∀ cl, (fourNodes.books cl).Positive := fun _ =>
    ⟨Nat.one_pos, Nat.one_pos, Nat.one_pos, Nat.one_pos, fun size hsize => by
      obtain rfl := List.mem_singleton.mp hsize
      exact Nat.two_pos⟩
  have hcounts : fourNodes.Counts := .inl (Option.some_ne_none _)
  exact ⟨rfl, (outstanding_counted hcounts hsizes reached_firstHead 1).1⟩

end Books

end Flyover.Traffic
