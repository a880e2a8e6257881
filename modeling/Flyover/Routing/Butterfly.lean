import Flyover.Progress.Walks
import Flyover.Routing.Digits

/-!
# The butterfly

`KNFly` builds `gN` stages of switches with `gK` ports each. The wiring behind a stage
exchanges a digit of the position with the port, so a packet whose destination's digits
choose the ports is at its destination behind the last stage.
-/

namespace Flyover

open Flyover.Cube

/-- `_k` and `_n` -/
structure Fly where
  gK : Nat
  gN : Nat

/-- A switch: its stage and its address in the stage. -/
structure FlySwitch where
  stage : Nat
  addr : Nat

namespace Fly

variable (f : Fly)

/-- `gNodes` -/
def gNodes : Nat := f.gK ^ f.gN

/-- `per_stage` -/
def perStage : Nat := f.gK ^ (f.gN - 1)

/-- The identifier that `_BuildNet` gives to a switch. -/
def id (s : FlySwitch) : Nat := s.stage * f.perStage + s.addr

/-- `_OutChannel` -/
def outChannel (stage addr port : Nat) : Nat := stage * f.gNodes + addr * f.gK + port

/-- `_InChannel` -/
def inChannel (stage addr port : Nat) : Nat :=
  let shift := f.gK ^ (f.gN - stage - 1)
  let zeroDigit := addr / shift % f.gK
  (stage - 1) * f.gNodes + (addr - zeroDigit * shift + port * shift) * f.gK + zeroDigit

/-- The input channels: the `i`-th of the injection channels, or a channel of the network. -/
def input (s : FlySwitch) (port : Nat) : Bool × Nat :=
  if s.stage = 0 then (false, s.addr * f.gK + port) else (true, f.inChannel s.stage s.addr port)

/-- The output channels: a channel of the network, or the `i`-th of the ejection channels. -/
def output (s : FlySwitch) (port : Nat) : Bool × Nat :=
  if s.stage = f.gN - 1 then (false, s.addr * f.gK + port)
  else (true, f.outChannel s.stage s.addr port)

/-- A switch that is there. -/
structure Switch (s : FlySwitch) : Prop where
  stage : s.stage < f.gN
  addr : s.addr < f.perStage

/-- A channel of the network leads from the one to the other. -/
def Feeds (s : FlySwitch) (port : Nat) (s' : FlySwitch) (port' : Nat) : Prop :=
  ∃ c, f.output s port = (true, c) ∧ f.input s' port' = (true, c)

/-- The loop of `dest_tag_fly` with `left` rounds left. -/
def destTag (gK : Nat) : Nat → Nat → Nat
  | 0, dest => dest
  | left + 1, dest => destTag gK left (dest / gK)

/-- The port that `dest_tag_fly` chooses at a router. -/
def destTagPort (routerID dest : Nat) : Nat :=
  destTag f.gK (f.gN - 1 - routerID * f.gK / f.gNodes) dest % f.gK

end Fly

/-- What a call of `dest_tag_fly` reads. -/
structure FlyCall (f : Fly) where
  config : RoutingConfig
  id : Nat
  type : FlitType
  vc : Int
  dest : Fin f.gNodes
  inject : Bool

/-- `dest_tag_fly` -/
def FlyCall.destTagFly {f : Fly} (call : FlyCall f) : Option (List Offer) :=
  let vcs := call.config.vcs call.type
  if (vcs.vcBegin ≤ call.vc ∧ call.vc ≤ vcs.vcEnd) ∨ (call.inject = true ∧ call.vc < 0) then
    some (vcs.offer (if call.inject then -1 else f.destTagPort call.id call.dest))
  else none

/-- What stays the same of a packet. -/
structure FlyPacket (f : Fly) where
  config : RoutingConfig
  type : FlitType
  dest : Fin f.gNodes

/-- Where a packet is: the switch, and its virtual channel. -/
structure FlySpot where
  switch : FlySwitch
  vc : Int

namespace Fly

variable {f : Fly} {pkt : FlyPacket f} {s s' : FlySpot}

/-- The call for a packet. -/
def callFor (pkt : FlyPacket f) (s : FlySpot) : FlyCall f :=
  ⟨pkt.config, f.id s.switch, pkt.type, s.vc, pkt.dest, false⟩

/-- One hop: over an offered port, into an offered virtual channel. -/
def Hop (pkt : FlyPacket f) (s s' : FlySpot) : Prop :=
  ∃ offers offer, (callFor pkt s).destTagFly = some offers ∧ offer ∈ offers ∧
    (∃ port port', offer.outputPort = Int.ofNat port ∧ port < f.gK ∧ port' < f.gK ∧
      f.Switch s'.switch ∧ f.Feeds s.switch port s'.switch port') ∧
    offer.vcStart ≤ s'.vc ∧ s'.vc ≤ offer.vcEnd

/-- A packet that has been injected at node `src`. -/
structure Source (pkt : FlyPacket f) (src : Fin f.gNodes) (s : FlySpot) : Prop where
  switch : f.Switch s.switch
  input : ∃ port < f.gK, f.input s.switch port = (false, src.val)
  vcBegin_le : (pkt.config.vcs pkt.type).vcBegin ≤ s.vc
  le_vcEnd : s.vc ≤ (pkt.config.vcs pkt.type).vcEnd

/-! ### The wiring -/

section Wiring

variable {t t' : FlySwitch} {port port' : Nat}

theorem perStage_mul (hN : 0 < f.gN) : f.perStage * f.gK = f.gNodes := by
  rw [perStage, gNodes, ← pow_succ, Nat.sub_add_cancel hN]

theorem channel_lt {addr : Nat} (haddr : addr < f.perStage) (hport : port < f.gK) (hN : 0 < f.gN) :
    addr * f.gK + port < f.gNodes := by
  rw [← perStage_mul hN]
  have hnext : (addr + 1) * f.gK ≤ f.perStage * f.gK := Nat.mul_le_mul_right _ haddr
  rw [Nat.add_mul, Nat.one_mul] at hnext
  omega

/-- What `_InChannel` computes: the port and a digit change places. -/
theorem inChannel_eq (stage addr port : Nat) : f.inChannel stage addr port =
    (stage - 1) * f.gNodes + replaceDigit f.gK (f.gN - stage - 1) port addr * f.gK +
      coordinate f.gK addr (f.gN - stage - 1) := by
  have haddr : addr - coordinate f.gK addr (f.gN - stage - 1) * f.gK ^ (f.gN - stage - 1) +
        port * f.gK ^ (f.gN - stage - 1) =
      replaceDigit f.gK (f.gN - stage - 1) port addr := by
    have hsplit := replaceDigit_self f.gK (f.gN - stage - 1) addr
    rw [replaceDigit] at hsplit ⊢
    generalize addr % f.gK ^ (f.gN - stage - 1) = low at hsplit ⊢
    omega
  rw [← haddr]
  rfl

/-- A channel leads to the next stage, to the switch whose digit is the port that it
leaves by, and comes in by the port that is the old digit. -/
theorem feeds_iff (ht : f.Switch t) (ht' : f.Switch t') (hport : port < f.gK)
    (hport' : port' < f.gK) :
    f.Feeds t port t' port' ↔ t'.stage = t.stage + 1 ∧
      t'.addr = replaceDigit f.gK (f.gN - t'.stage - 1) port t.addr ∧
      port' = coordinate f.gK t.addr (f.gN - t'.stage - 1) := by
  have hN : 0 < f.gN := Nat.zero_lt_of_lt ht.stage
  have hstage := ht.stage
  have hstage' := ht'.stage
  have hdigit : coordinate f.gK t'.addr (f.gN - t'.stage - 1) < f.gK :=
    coordinate_lt (Nat.zero_lt_of_lt hport)
  have hsame : t'.stage = t.stage + 1 →
      (f.outChannel t.stage t.addr port = f.inChannel t'.stage t'.addr port' ↔
        t'.addr = replaceDigit f.gK (f.gN - t'.stage - 1) port t.addr ∧
          port' = coordinate f.gK t.addr (f.gN - t'.stage - 1)) := by
    intro hnext
    rw [inChannel_eq, outChannel, hnext, Nat.add_sub_cancel, Nat.add_assoc, Nat.add_assoc,
      Nat.add_left_cancel_iff, channel_eq_iff hport (hnext ▸ hdigit), exchange_iff hport hport']
  constructor
  · rintro ⟨channel, hout, hin⟩
    rw [output] at hout
    rw [input] at hin
    split at hout
    next => cases hout
    next hinner =>
      split at hin
      next => cases hin
      next hpos =>
        have hchannel : f.outChannel t.stage t.addr port = f.inChannel t'.stage t'.addr port' := by
          rw [(Prod.mk.inj hout).2, (Prod.mk.inj hin).2]
        have hfar := replaceDigit_lt hport' (by omega : f.gN - t'.stage - 1 < f.gN - 1) ht'.addr
        have hlow := channel_lt ht.addr hport hN
        have hhigh := channel_lt hfar hdigit hN
        have hnext : t'.stage = t.stage + 1 := by
          have hcopy := hchannel
          rw [inChannel_eq, outChannel, Nat.add_assoc, Nat.add_assoc] at hcopy
          have hdiv := congrArg (· / f.gNodes) hcopy
          have hpos' : 0 < f.gNodes := Nat.zero_lt_of_lt hlow
          simp only [Nat.mul_comm _ f.gNodes, Nat.mul_add_div hpos', Nat.div_eq_of_lt hlow,
            Nat.div_eq_of_lt hhigh, Nat.add_zero] at hdiv
          omega
        exact ⟨hnext, (hsame hnext).mp hchannel⟩
  · rintro ⟨hnext, hrest⟩
    refine ⟨f.outChannel t.stage t.addr port, ?_, ?_⟩
    · exact if_neg (by omega)
    · rw [(hsame hnext).mpr hrest]
      exact if_neg (by omega)

end Wiring

/-! ### The digits of the destination -/

theorem destTag_eq (k left dest : Nat) : destTag k left dest = dest / k ^ left := by
  induction left generalizing dest with
  | zero => simp [destTag]
  | succ left ih => rw [destTag, ih, Nat.div_div_eq_div_mul, pow_succ']

theorem destTagPort_eq {t : FlySwitch} (ht : f.Switch t) (hk : 0 < f.gK) (dest : Nat) :
    f.destTagPort (f.id t) dest = coordinate f.gK dest (f.gN - 1 - t.stage) := by
  have hN : 0 < f.gN := Nat.zero_lt_of_lt ht.stage
  have hlow : t.addr * f.gK < f.gNodes := by
    have := channel_lt ht.addr hk hN
    omega
  have hstage : f.id t * f.gK / f.gNodes = t.stage := by
    rw [id, Nat.add_mul, Nat.mul_assoc, perStage_mul hN, Nat.mul_comm t.stage,
      Nat.mul_add_div (Nat.zero_lt_of_lt hlow), Nat.div_eq_of_lt hlow, Nat.add_zero]
  rw [destTagPort, hstage, destTag_eq]
  rfl

/-! ### Delivery -/

/-- Behind `stage` stages the leading digits of the address are those of the destination. -/
structure OnTrack (pkt : FlyPacket f) (i : Nat) (s : FlySpot) : Prop where
  switch : f.Switch s.switch
  stage : s.switch.stage = i
  addr : s.switch.addr / f.gK ^ (f.gN - 1 - i) = pkt.dest / f.gK ^ (f.gN - i)
  vcBegin_le : (pkt.config.vcs pkt.type).vcBegin ≤ s.vc
  le_vcEnd : s.vc ≤ (pkt.config.vcs pkt.type).vcEnd

theorem destTagFly_eq {i : Nat} (h : OnTrack pkt i s) (hk : 0 < f.gK) :
    (callFor pkt s).destTagFly = some ((pkt.config.vcs pkt.type).offer
      (Int.ofNat (coordinate f.gK pkt.dest (f.gN - 1 - i)))) := by
  have hport := destTagPort_eq h.switch hk pkt.dest
  rw [h.stage] at hport
  rw [← hport]
  exact if_pos (.inl ⟨h.vcBegin_le, h.le_vcEnd⟩)

theorem gK_pos (dest : Fin f.gNodes) (hN : 0 < f.gN) : 0 < f.gK := by
  refine Nat.pos_of_ne_zero fun hzero => ?_
  have hlt : dest.val < f.gK ^ f.gN := dest.isLt
  rw [hzero, Nat.zero_pow hN] at hlt
  exact absurd hlt (Nat.not_lt_zero _)

theorem Source.onTrack {src : Fin f.gNodes} (h : Source pkt src s) : OnTrack pkt 0 s := by
  obtain ⟨port, -, hinput⟩ := h.input
  rw [Fly.input] at hinput
  split at hinput
  next hstage =>
    refine ⟨h.switch, hstage, ?_, h.vcBegin_le, h.le_vcEnd⟩
    have haddr : s.switch.addr < f.gK ^ (f.gN - 1) := h.switch.addr
    have hdest : pkt.dest.val < f.gK ^ f.gN := pkt.dest.isLt
    rw [Nat.sub_zero, Nat.sub_zero, Nat.div_eq_of_lt haddr, Nat.div_eq_of_lt hdest]
  next => cases hinput

theorem OnTrack.hop {i : Nat} (h : OnTrack pkt i s) (hhop : Hop pkt s s') : OnTrack pkt (i + 1) s' := by
  have hN : 0 < f.gN := Nat.zero_lt_of_lt h.switch.stage
  have hk := gK_pos pkt.dest hN
  obtain ⟨offers, offer, hcall, hmem, ⟨port, port', hoffer, hport, hport', hswitch, hfeeds⟩, hvc⟩ := hhop
  obtain rfl := Option.some.inj ((destTagFly_eq h hk).symm.trans hcall)
  obtain rfl := List.mem_singleton.mp hmem
  obtain rfl := Int.ofNat_inj.mp hoffer
  obtain ⟨hstage, haddr, -⟩ := (feeds_iff h.switch hswitch hport hport').mp hfeeds
  rw [h.stage] at hstage
  refine ⟨hswitch, hstage, ?_, hvc.1, hvc.2⟩
  have hlt := hswitch.stage
  have hexp : f.gN - 1 - i = f.gN - 1 - (i + 1) + 1 := by omega
  have hexp' : f.gN - i = f.gN - 1 - i + 1 := by omega
  have hexp'' : f.gN - (i + 1) = f.gN - 1 - i := by omega
  have hplace : f.gN - s'.switch.stage - 1 = f.gN - 1 - (i + 1) := by omega
  rw [haddr, hplace, replaceDigit_div_self hport, ← hexp, h.addr, hexp', hexp'', ← div_pow_succ]

/-- A packet goes from stage to stage, over the one channel that each call offers, and
behind the last stage it is ejected at its destination. -/
theorem destTagFly_delivers {src : Fin f.gNodes} {source : FlySpot} {i : Nat}
    (hsource : Source pkt src source) (hwalk : Progress.Walk (Hop pkt) source i s) :
    s.switch.stage = i ∧ i < f.gN ∧ ∃ port < f.gK,
      (callFor pkt s).destTagFly =
        some ((pkt.config.vcs pkt.type).offer (Int.ofNat port)) ∧
      (i + 1 < f.gN → ∃! far : FlySwitch × Nat,
        f.Switch far.1 ∧ far.2 < f.gK ∧ f.Feeds s.switch port far.1 far.2) ∧
      (i + 1 = f.gN → f.output s.switch port = (false, pkt.dest.val)) := by
  have htrack : OnTrack pkt i s := hwalk.invariant (P := OnTrack pkt) hsource.onTrack OnTrack.hop
  have hstage := htrack.switch.stage
  rw [htrack.stage] at hstage
  have hk := gK_pos pkt.dest (Nat.zero_lt_of_lt hstage)
  have hport : coordinate f.gK pkt.dest (f.gN - 1 - i) < f.gK := coordinate_lt hk
  refine ⟨htrack.stage, hstage, _, hport, destTagFly_eq htrack hk, fun hinner => ?_, fun hlast => ?_⟩
  · have hplace : f.gN - (i + 1) - 1 < f.gN - 1 := by omega
    have hfar : f.Switch ⟨i + 1, replaceDigit f.gK (f.gN - (i + 1) - 1)
        (coordinate f.gK pkt.dest (f.gN - 1 - i)) s.switch.addr⟩ :=
      ⟨hinner, replaceDigit_lt hport hplace htrack.switch.addr⟩
    have hdigit : coordinate f.gK s.switch.addr (f.gN - (i + 1) - 1) < f.gK := coordinate_lt hk
    refine ⟨(_, _), ⟨hfar, hdigit, ?_⟩, ?_⟩
    · exact (feeds_iff htrack.switch hfar hport hdigit).mpr
        ⟨by rw [htrack.stage], rfl, rfl⟩
    · rintro ⟨⟨stage, addr⟩, port'⟩ ⟨hswitch, hport', hfeeds⟩
      obtain ⟨hnext, haddr, hdigit'⟩ := (feeds_iff htrack.switch hswitch hport hport').mp hfeeds
      rw [htrack.stage] at hnext
      dsimp only at hnext haddr hdigit'
      subst hnext haddr hdigit'
      rfl
  · have haddr := htrack.addr
    have hzero : f.gN - 1 - i = 0 := by omega
    have hone : f.gN - i = 0 + 1 := by omega
    rw [hzero, hone, pow_zero, Nat.div_one] at haddr
    rw [hzero, output, if_pos (by rw [htrack.stage]; omega), haddr, ← div_pow_succ, pow_zero,
      Nat.div_one]

/-- The eight nodes of three stages of switches with two ports. -/
example : (⟨2, 3⟩ : Fly).destTagPort 2 6 = 1 ∧ (⟨2, 3⟩ : Fly).destTagPort 6 6 = 1 ∧
    (⟨2, 3⟩ : Fly).destTagPort 11 6 = 0 := by decide

theorem six_lt : 6 < (⟨2, 3⟩ : Fly).gNodes := by decide

theorem three_lt : 3 < (⟨2, 3⟩ : Fly).gNodes := by decide

/-- A packet to node 6, -/
def toSix : FlyPacket ⟨2, 3⟩ := ⟨.twoVCs, .anyType, ⟨6, six_lt⟩⟩

theorem source_three : Source toSix ⟨3, three_lt⟩ ⟨⟨0, 1⟩, 0⟩ :=
  ⟨⟨by decide, by decide⟩, ⟨1, by decide, rfl⟩, by decide, by decide⟩

/-- from node 3, behind the first stage. -/
theorem walk_three : Progress.Walk (Hop toSix) ⟨⟨0, 1⟩, 0⟩ 1 ⟨⟨1, 3⟩, 1⟩ := by
  refine .step .start ⟨_, _, rfl, List.mem_singleton_self _, ⟨1, 0, rfl, by decide, by decide,
    ⟨by decide, by decide⟩, 3, rfl, rfl⟩, by decide, by decide⟩

theorem destTagFly_delivers_three : (1 = 1 ∧ 1 < 3) ∧ ∃ port < 2,
    (callFor toSix ⟨⟨1, 3⟩, 1⟩).destTagFly =
      some ((RoutingConfig.twoVCs.vcs .anyType).offer (Int.ofNat port)) ∧
    (1 + 1 < 3 → ∃! far : FlySwitch × Nat,
      (⟨2, 3⟩ : Fly).Switch far.1 ∧ far.2 < 2 ∧ (⟨2, 3⟩ : Fly).Feeds ⟨1, 3⟩ port far.1 far.2) ∧
    (1 + 1 = 3 → (⟨2, 3⟩ : Fly).output ⟨1, 3⟩ port = (false, 6)) :=
  have h := destTagFly_delivers source_three walk_three
  ⟨⟨h.1, h.2.1⟩, h.2.2⟩

end Fly

end Flyover
