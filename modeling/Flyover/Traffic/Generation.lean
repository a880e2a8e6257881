import Flyover.Progress.Runs
import Flyover.Traffic.Destinations

/-!
# Packets and their destinations

A node generates plain packets, requests and replies. The search for a destination is
made for all of them, and a reply is then sent to the node that the request came from.
-/

namespace Flyover.Traffic

open Drawing

inductive PacketType where
  | any
  | readRequest
  | writeRequest
  | readReply
  | writeReply
  deriving DecidableEq, Repr

/-- What is kept of a request until its reply is generated. -/
structure PacketReplyInfo where
  source : ℤ
  type : PacketType

structure Packet where
  src : ℤ
  dest : ℤ
  type : PacketType
  deriving DecidableEq

structure PacketState where
  inFlight : List Packet
  repliesPending : ℤ → List PacketReplyInfo

def PacketState.start : PacketState := { inFlight := [], repliesPending := fun _ => [] }

/-- The type and the destination of a packet, and the replies that are left. -/
def packetFor (useReadWrite : Bool) (stype found : ℤ) (replies : List PacketReplyInfo) :
    Except Stop (PacketType × ℤ × List PacketReplyInfo) :=
  if useReadWrite then
    if stype > 0 then
      if stype = 1 then .ok (.readRequest, found, replies)
      else if stype = 2 then .ok (.writeRequest, found, replies)
      else .error .fails
    else
      match replies with
      | [] => .error .fails
      | rinfo :: rest =>
          match rinfo.type with
          | .readRequest => .ok (.readReply, rinfo.source, rest)
          | .writeRequest => .ok (.writeReply, rinfo.source, rest)
          | _ => .error .fails
  else .ok (.any, found, replies)

section

variable {ι : Type} {nodes : ℕ} (traffic : ι → ClassTraffic nodes) (useReadWrite : ι → Bool)
  (core : ℕ → Bool)

/-- `_GeneratePacket`, on the destinations that the pattern gives one after another. -/
def generatePacket (s : PacketState) (source stype : ℤ) (cl : ι) (given : List ℤ) :
    Except Stop PacketState := do
  if stype = 0 ∨ coreAt nodes core source ≠ some true then .error .fails
  else
    let found ← findDestination (traffic cl) core source given
    let (type, dest, replies) ← packetFor (useReadWrite cl) stype found (s.repliesPending source)
    if dest < 0 ∨ dest ≥ nodes then .error .fails
    else .ok { inFlight := { src := source, dest := dest, type := type } :: s.inFlight
               repliesPending := Function.update s.repliesPending source replies }

/-- `_RetireFlit`, for the tail of a packet. -/
def retirePacket (s : PacketState) (p : Packet) : PacketState :=
  { inFlight := s.inFlight.erase p
    repliesPending :=
      if p.type = .readRequest ∨ p.type = .writeRequest then
        Function.update s.repliesPending p.dest
          (s.repliesPending p.dest ++ [{ source := p.src, type := p.type }])
      else s.repliesPending }

inductive TrafficEvent (ι : Type) where
  | generate (source stype : ℤ) (cl : ι) (given : List ℤ)
  | retire (p : Packet)

def performTraffic (s : PacketState) : TrafficEvent ι → Except Stop PacketState
  | .generate source stype cl given =>
      generatePacket traffic useReadWrite core s source stype cl given
  | .retire p => .ok (retirePacket s p)

/-- The pattern can give these destinations, and only packets in flight are retired. -/
def TrafficEvent.Meets (s : PacketState) : TrafficEvent ι → Prop
  | .generate source _ cl given => ∀ d ∈ given, CanGive (traffic cl) source d
  | .retire p => p ∈ s.inFlight

/-- The states of the runs from the start of the simulation. -/
def TrafficReached (s : PacketState) : Prop :=
  Runs.Reaches (performTraffic traffic useReadWrite core)
    (fun s e => TrafficEvent.Meets traffic s e) .start s

end

section

variable {ι : Type} {nodes : ℕ} {traffic : ι → ClassTraffic nodes} {useReadWrite : ι → Bool}
  {core : ℕ → Bool} {s s' : PacketState}

/-- Packets go from and to nodes whose cores are on, and so do the replies to come. -/
structure Awake (nodes : ℕ) (core : ℕ → Bool) (s : PacketState) : Prop where
  src : ∀ p ∈ s.inFlight, CoreOn nodes core p.src
  dest : ∀ p ∈ s.inFlight, CoreOn nodes core p.dest
  replies : ∀ node, ∀ rinfo ∈ s.repliesPending node, CoreOn nodes core rinfo.source

theorem coreOn_of_coreAt {node : ℤ} (h : coreAt nodes core node = some true) :
    CoreOn nodes core node := by
  obtain ⟨hrange, hon⟩ := Option.ite_none_right_eq_some.mp h
  exact ⟨hrange, Option.some.inj hon⟩

theorem coreOn_of_redraw {given : List ℤ} {d : ℤ} (h : redraw nodes core given = .ok d) :
    CoreOn nodes core d := by
  induction given with
  | nil => cases h
  | cons c given ih =>
      rw [redraw] at h
      split at h
      next => cases h
      next hon =>
        cases h
        exact coreOn_of_coreAt hon
      next => exact ih h

/-- The search ends on a core that is on. -/
theorem coreOn_of_findDestination {t : ClassTraffic nodes} {source : ℤ}
    (hsource : CoreOn nodes core source) {given : List ℤ} {d : ℤ}
    (h : findDestination t core source given = .ok d) : CoreOn nodes core d := by
  cases given with
  | nil => cases h
  | cons c given =>
      rw [findDestination] at h
      split at h
      next => cases h
      next =>
        split at h
        next =>
          cases h
          exact hsource
        next => exact coreOn_of_redraw h

/-- A packet goes to the destination that was found, a reply to the source of its request. -/
theorem packetFor_spec {useReadWrite : Bool} {stype found dest : ℤ} {type : PacketType}
    {replies rest : List PacketReplyInfo}
    (h : packetFor useReadWrite stype found replies = .ok (type, dest, rest)) :
    (dest = found ∨ ∃ rinfo ∈ replies, dest = rinfo.source) ∧ ∀ rinfo ∈ rest, rinfo ∈ replies := by
  unfold packetFor at h
  split at h
  next =>
    split at h
    next =>
      split at h
      next =>
        cases h
        exact ⟨.inl rfl, fun _ hr => hr⟩
      next =>
        split at h
        next =>
          cases h
          exact ⟨.inl rfl, fun _ hr => hr⟩
        next => cases h
    next =>
      -- a reply takes the first request that waits for one
      split at h
      next => cases h
      next rinfo left =>
        have hfirst : ∃ r ∈ rinfo :: left, rinfo.source = r.source :=
          ⟨rinfo, List.mem_cons_self, rfl⟩
        split at h
        next =>
          cases h
          exact ⟨.inr hfirst, fun _ hr => List.mem_cons_of_mem _ hr⟩
        next =>
          cases h
          exact ⟨.inr hfirst, fun _ hr => List.mem_cons_of_mem _ hr⟩
        next => cases h
  next =>
    cases h
    exact ⟨.inl rfl, fun _ hr => hr⟩

/-- A generated packet is in front of those in flight, and no reply is added. -/
theorem exists_of_generatePacket {source stype : ℤ} {cl : ι} {given : List ℤ}
    (h : generatePacket traffic useReadWrite core s source stype cl given = .ok s') :
    ∃ found type dest rest, CoreOn nodes core source ∧
      findDestination (traffic cl) core source given = .ok found ∧
      packetFor (useReadWrite cl) stype found (s.repliesPending source) = .ok (type, dest, rest) ∧
      s' = { inFlight := { src := source, dest := dest, type := type } :: s.inFlight
             repliesPending := Function.update s.repliesPending source rest } := by
  unfold generatePacket at h
  split at h
  next => cases h
  next hguard =>
    have hsource := coreOn_of_coreAt (not_not.mp (not_or.mp hguard).2)
    cases hfind : findDestination (traffic cl) core source given with
    | error e =>
        rw [hfind] at h
        cases h
    | ok found =>
        cases hpacket : packetFor (useReadWrite cl) stype found (s.repliesPending source) with
        | error e =>
            simp only [hfind, hpacket, bind, Except.bind] at h
            cases h
        | ok result =>
            obtain ⟨type, dest, rest⟩ := result
            simp only [hfind, hpacket, bind, Except.bind] at h
            split at h
            next => cases h
            next =>
              cases h
              exact ⟨found, type, dest, rest, hsource, rfl, hpacket, rfl⟩

theorem Awake.generate (hs : Awake nodes core s) {source stype : ℤ} {cl : ι} {given : List ℤ}
    (h : generatePacket traffic useReadWrite core s source stype cl given = .ok s') :
    Awake nodes core s' := by
  obtain ⟨found, type, dest, rest, hsource, hfind, hpacket, rfl⟩ := exists_of_generatePacket h
  obtain ⟨hdest, hrest⟩ := packetFor_spec hpacket
  refine ⟨?_, ?_, ?_⟩
  · intro p hp
    rcases List.mem_cons.mp hp with rfl | hp
    · exact hsource
    · exact hs.src p hp
  · intro p hp
    rcases List.mem_cons.mp hp with rfl | hp
    · rcases hdest with rfl | ⟨rinfo, hrinfo, rfl⟩
      · exact coreOn_of_findDestination hsource hfind
      · exact hs.replies source rinfo hrinfo
    · exact hs.dest p hp
  · intro node rinfo hrinfo
    dsimp only at hrinfo
    by_cases hnode : node = source
    · subst hnode
      rw [Function.update_self] at hrinfo
      exact hs.replies node rinfo (hrest rinfo hrinfo)
    · rw [Function.update_of_ne hnode] at hrinfo
      exact hs.replies node rinfo hrinfo

theorem Awake.retire (hs : Awake nodes core s) {p : Packet} (hp : p ∈ s.inFlight) :
    Awake nodes core (retirePacket s p) := by
  refine ⟨fun q hq => hs.src q (List.mem_of_mem_erase hq),
    fun q hq => hs.dest q (List.mem_of_mem_erase hq), ?_⟩
  intro node rinfo hrinfo
  unfold retirePacket at hrinfo
  dsimp only at hrinfo
  split at hrinfo
  next =>
    by_cases hnode : node = p.dest
    · subst hnode
      rw [Function.update_self] at hrinfo
      rcases List.mem_append.mp hrinfo with hrinfo | hrinfo
      · exact hs.replies _ rinfo hrinfo
      · rw [List.mem_singleton] at hrinfo
        subst hrinfo
        exact hs.src p hp
    · rw [Function.update_of_ne hnode] at hrinfo
      exact hs.replies node rinfo hrinfo
  next => exact hs.replies node rinfo hrinfo

/-- In every run packets go to nodes whose cores are on. -/
theorem awake_of_reached (h : TrafficReached traffic useReadWrite core s) :
    Awake nodes core s := by
  apply h.invariant
  · exact ⟨nofun, nofun, nofun⟩
  · intro s e s' hs hmeets hperform
    cases e with
    | generate source stype cl given => exact hs.generate hperform
    | retire p =>
        cases hperform
        exact hs.retire hmeets

/-- A source whose core is on finds a destination for its packets, of whatever type, exactly
if its pattern reaches a core that is on; the packets that any run generates go to such. -/
theorem generation_finds_iff (traffic : ι → ClassTraffic nodes) (useReadWrite : ι → Bool)
    (core : ℕ → Bool) :
    (∀ cl source, CoreOn nodes core source →
      (FindsDestination (traffic cl) core source ↔
        Reaches nodes core (traffic cl).name source (traffic cl).pattern)) ∧
    ∀ s, TrafficReached traffic useReadWrite core s → ∀ p ∈ s.inFlight, CoreOn nodes core p.dest :=
  ⟨fun _ _ => findsDestination_iff_reaches, fun _ hs => (awake_of_reached hs).dest⟩

def bitCompOfFour : ClassTraffic 4 where
  name := "bitcomp"
  pattern := .bitComp
  accepted := ⟨by decide, by decide, by decide⟩
  named := by
    intro hname
    exact absurd hname (by decide)

/-- Node 1 of four nodes has its core on, and sends to node 2 only, whose core is off. -/
theorem not_findsDestination_bitComp :
    CoreOn 4 (fun n => n ≠ 2) 1 ∧ bitCompDest 4 1 = some 2 ∧
      ¬ FindsDestination bitCompOfFour (fun n => n ≠ 2) 1 := by
  have hon : CoreOn 4 (fun n => n ≠ 2) 1 := ⟨⟨by decide, by decide⟩, by decide⟩
  refine ⟨hon, by decide, ?_⟩
  rw [findsDestination_iff_reaches hon]
  rintro ⟨d, hd, -, hcore⟩
  obtain rfl : d = 2 := Option.some.inj (hd.symm.trans (by decide))
  exact absurd hcore (by decide)

end

end Flyover.Traffic
