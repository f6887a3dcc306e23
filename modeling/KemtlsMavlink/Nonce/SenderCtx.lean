import KemtlsMavlink.Library.Dispenser
import KemtlsMavlink.Library.Modular

namespace KemtlsMavlink

open Library

inductive Direction
  | tx | rx
  deriving DecidableEq, Repr

structure SenderCtx where
  direction : Direction
  keyEpoch : UInt32
  nextCounter : UInt64
  exhausted : Bool
  deriving DecidableEq, Repr

def uint64Max : UInt64 := 0xFFFFFFFFFFFFFFFF

def senderCtxInit (dir : Direction) (epoch : UInt32) : SenderCtx := ⟨dir, epoch, 0, false⟩

/-- The result, the context and `*counter_out`, which held `counterOut` before. -/
def senderCtxNext (ctx : SenderCtx) (counterOut : UInt64) : Bool × SenderCtx × UInt64 :=
  if ctx.exhausted then (false, ctx, counterOut)
  else if ctx.nextCounter = uint64Max then (true, { ctx with exhausted := true }, ctx.nextCounter)
  else (true, { ctx with nextCounter := ctx.nextCounter + 1 }, ctx.nextCounter)

def assembleNonce (domainPrefix : UInt32) (counter : UInt64) : List UInt8 :=
  [(domainPrefix >>> 24).toUInt8, (domainPrefix >>> 16).toUInt8, (domainPrefix >>> 8).toUInt8,
    domainPrefix.toUInt8] ++
  (List.range 8).map fun i ↦ (counter >>> UInt64.ofNat (56 - 8 * i)).toUInt8

variable {ι : Type} [DecidableEq ι]

/-- A call of `sender_ctx_next` on the context `ctx`, for a message that takes
`blocks` blocks. -/
structure SenderCall (ι : Type) where
  ctx : ι
  counterOut : UInt64
  blocks : Nat

structure SentMessage (ι : Type) where
  ctx : ι
  counter : UInt64
  blocks : Nat

/-- What the message is encrypted with: its nonce with each of its block counters. -/
def SentMessage.pairs (domainPrefix : ι → UInt32) (m : SentMessage ι) :
    List (List UInt8 × UInt32) :=
  (List.range m.blocks).map fun j ↦
    (assembleNonce (domainPrefix m.ctx) m.counter, UInt32.ofNat j)

def senders (ι : Type) [DecidableEq ι] : Machine (ι → SenderCtx) (SenderCall ι) (SentMessage ι) :=
  ⟨fun s e ↦
    let r := senderCtxNext (s e.ctx) e.counterOut
    (Function.update s e.ctx r.2.1, if r.1 then [⟨e.ctx, r.2.2, e.blocks⟩] else [])⟩

def sendersInit (dir : ι → Direction) (epoch : ι → UInt32) (c : ι) : SenderCtx :=
  senderCtxInit (dir c) (epoch c)

structure SenderCtx.Sent (ctx : SenderCtx) (k : Nat) : Prop where
  le : k ≤ 2 ^ 64
  exhausted : ctx.exhausted = true ↔ k = 2 ^ 64
  next : k < 2 ^ 64 → ctx.nextCounter.toNat = k

theorem senderCtxNext_exhausted {ctx : SenderCtx} (h : ctx.exhausted = true) (out : UInt64) :
    senderCtxNext ctx out = (false, ctx, out) := if_pos h

theorem senderCtxNext_sent {ctx : SenderCtx} {k : Nat} (h : ctx.Sent k) (hk : k < 2 ^ 64)
    (out : UInt64) : ∃ ctx' : SenderCtx, ctx'.Sent (k + 1) ∧
      senderCtxNext ctx out = (true, ctx', UInt64.ofNat k) := by
  have hx : ¬ ctx.exhausted = true := fun hx ↦ absurd (h.exhausted.mp hx) (Nat.ne_of_lt hk)
  have hn := h.next hk
  have hc : ctx.nextCounter = UInt64.ofNat k := by rw [← hn, UInt64.ofNat_toNat]
  unfold senderCtxNext
  rw [if_neg hx]
  split_ifs with hmax
  · have hlast : k = 2 ^ 64 - 1 := by
      rw [← hn, hmax]
      rfl
    refine ⟨{ ctx with exhausted := true }, ⟨hk, ?_, ?_⟩, by rw [hc]⟩
    · exact iff_of_true rfl (by omega)
    · intro hlt
      omega
  · have hlast : k ≠ 2 ^ 64 - 1 := by
      intro he
      apply hmax
      apply UInt64.toNat_inj.mp
      rw [hn, he]
      rfl
    refine ⟨{ ctx with nextCounter := ctx.nextCounter + 1 }, ⟨hk, ?_, ?_⟩, by rw [hc]⟩
    · exact iff_of_false hx (by omega)
    · intro hlt
      change (ctx.nextCounter + 1).toNat = k + 1
      rw [UInt64.toNat_add, hn]
      exact Nat.mod_eq_of_lt hlt

def SentMessage.ticket (m : SentMessage ι) : Ticket ι := ⟨m.ctx, m.counter.toNat⟩

omit [DecidableEq ι] in
theorem sendersInit_sent (dir : ι → Direction) (epoch : ι → UInt32) (c : ι) :
    (sendersInit dir epoch c).Sent 0 :=
  ⟨Nat.zero_le _, iff_of_false Bool.false_ne_true (by decide), fun _ ↦ rfl⟩

theorem senders_step {s : ι → SenderCtx} {t : ι → Nat} (h : ∀ c, (s c).Sent (t c))
    (e : SenderCall ι) :
    (∀ c, (((senders ι).step s e).1 c).Sent (((dispensers (2 ^ 64)).step t e.ctx).1 c)) ∧
      ((senders ι).step s e).2.map SentMessage.ticket = ((dispensers (2 ^ 64)).step t e.ctx).2 := by
  unfold senders dispensers
  dsimp only
  by_cases hk : t e.ctx < 2 ^ 64
  · obtain ⟨ctx', hs', he⟩ := senderCtxNext_sent (h e.ctx) hk e.counterOut
    rw [he, if_pos hk]
    constructor
    · intro c
      by_cases hc : c = e.ctx
      · subst hc
        simpa using hs'
      · simpa [hc] using h c
    · have hn : (UInt64.ofNat (t e.ctx)).toNat = t e.ctx := by
        rw [UInt64.toNat_ofNat', Nat.mod_eq_of_lt hk]
      simp only [if_true, List.map_cons, List.map_nil, SentMessage.ticket, hn]
  · have hx : (s e.ctx).exhausted = true :=
      (h e.ctx).exhausted.mpr (Nat.le_antisymm (h e.ctx).le (not_lt.mp hk))
    rw [senderCtxNext_exhausted hx, if_neg hk]
    exact ⟨by simpa using h, rfl⟩

/-- A family of senders refines a family of dispensers of 64-bit counters. -/
theorem senders_refine (dir : ι → Direction) (epoch : ι → UInt32) (es : List (SenderCall ι)) :
    (∀ c, ((senders ι).final (sendersInit dir epoch) es c).Sent
        ((dispensers (2 ^ 64)).final (fun _ ↦ 0) (es.map SenderCall.ctx) c)) ∧
      ((senders ι).outputs (sendersInit dir epoch) es).map SentMessage.ticket =
        (dispensers (2 ^ 64)).outputs (fun _ ↦ 0) (es.map SenderCall.ctx) :=
  Machine.refines (M := senders ι) (N := dispensers (2 ^ 64))
    (R := fun s t ↦ ∀ c, (s c).Sent (t c)) (Q := fun _ ↦ True) SenderCall.ctx SentMessage.ticket
    (fun _ _ e h _ ↦ senders_step h e) (sendersInit_sent dir epoch) fun _ _ ↦ trivial

theorem toNat_shiftRight32 (p : UInt32) {k : Nat} (hk : k < 4) :
    (p >>> UInt32.ofNat (8 * k)).toUInt8.toNat = p.toNat / 256 ^ k % 256 := by
  have hm : (UInt32.ofNat (8 * k)).toNat % 32 = 8 * k := by
    rw [UInt32.toNat_ofNat']
    omega
  rw [UInt32.toNat_toUInt8, UInt32.toNat_shiftRight, hm, Nat.shiftRight_eq_div_pow, Nat.pow_mul]

theorem toNat_shiftRight64 (c : UInt64) {k : Nat} (hk : k < 8) :
    (c >>> UInt64.ofNat (8 * k)).toUInt8.toNat = c.toNat / 256 ^ k % 256 := by
  have hm : (UInt64.ofNat (8 * k)).toNat % 64 = 8 * k := by
    rw [UInt64.toNat_ofNat']
    omega
  rw [UInt64.toNat_toUInt8, UInt64.toNat_shiftRight, hm, Nat.shiftRight_eq_div_pow, Nat.pow_mul]

theorem assembleNonce_injective {p q : UInt32} {c d : UInt64}
    (h : assembleNonce p c = assembleNonce q d) : p = q ∧ c = d := by
  obtain ⟨hpre, hctr⟩ := List.append_inj h rfl
  constructor
  · apply UInt32.toNat_inj.mp
    apply eq_of_digits (b := 256) (n := 4) p.toNat_lt q.toNat_lt
    intro i hi
    rw [← toNat_shiftRight32 p hi, ← toNat_shiftRight32 q hi]
    simp only [List.cons.injEq, and_true] at hpre
    obtain ⟨h₃, h₂, h₁, h₀⟩ := hpre
    apply congrArg UInt8.toNat
    match i, hi with
    | 0, _ => simpa using h₀
    | 1, _ => exact h₁
    | 2, _ => exact h₂
    | 3, _ => exact h₃
  · apply UInt64.toNat_inj.mp
    apply eq_of_digits (b := 256) (n := 8) c.toNat_lt d.toNat_lt
    intro i hi
    rw [← toNat_shiftRight64 c hi, ← toNat_shiftRight64 d hi]
    have hb := List.map_inj_left.mp hctr (7 - i) (List.mem_range.mpr (by omega))
    rw [show 56 - 8 * (7 - i) = 8 * i by omega] at hb
    rw [hb]

omit [DecidableEq ι] in
theorem pairs_disjoint {domainPrefix : ι → UInt32} (hp : Function.Injective domainPrefix)
    {m m' : SentMessage ι} (h : m.ticket ≠ m'.ticket) :
    List.Disjoint (m.pairs domainPrefix) (m'.pairs domainPrefix) := by
  intro x hx hx'
  obtain ⟨j, -, rfl⟩ := List.mem_map.mp hx
  obtain ⟨j', -, he⟩ := List.mem_map.mp hx'
  obtain ⟨hpre, hc⟩ := assembleNonce_injective (Prod.mk.inj he).1
  apply h
  rw [SentMessage.ticket, SentMessage.ticket, hp hpre, hc]

structure NonceDiscipline (domainPrefix : ι → UInt32) (dir : ι → Direction) (epoch : ι → UInt32)
    (es : List (SenderCall ι)) : Prop where
  unique : ((senders ι).outputs (sendersInit dir epoch) es).Pairwise fun m m' ↦
    List.Disjoint (m.pairs domainPrefix) (m'.pairs domainPrefix)
  inOrder : ∀ c, (((senders ι).outputs (sendersInit dir epoch) es).filter
    fun m ↦ m.ctx = c).map (·.counter.toNat) =
      List.range (min ((es.map SenderCall.ctx).count c) (2 ^ 64))
  closed : ∀ as bs, es = as ++ bs → ∀ m ∈ (senders ι).outputs (sendersInit dir epoch) as,
    m.counter = uint64Max → ∀ out,
      senderCtxNext ((senders ι).final (sendersInit dir epoch) as m.ctx) out =
        (false, (senders ι).final (sendersInit dir epoch) as m.ctx, out)

/-- Contexts with distinct domain prefixes never repeat a nonce and block counter,
whatever the order of their calls. -/
theorem nonceDiscipline {domainPrefix : ι → UInt32} (hp : Function.Injective domainPrefix)
    (dir : ι → Direction) (epoch : ι → UInt32) (es : List (SenderCall ι)) :
    NonceDiscipline domainPrefix dir epoch es where
  unique := by
    have hnodup := outputs_nodup (2 ^ 64) (es.map SenderCall.ctx)
    rw [← (senders_refine dir epoch es).2, List.Nodup, List.pairwise_map] at hnodup
    exact hnodup.imp fun h ↦ pairs_disjoint hp h
  inOrder := by
    intro c
    have hnum := numbersOf_outputs (2 ^ 64) c (es.map SenderCall.ctx)
    rw [← (senders_refine dir epoch es).2, numbersOf, List.filter_map, List.map_map,
      final_eq_min] at hnum
    exact hnum
  closed := by
    intro as bs _ m hm hmax out
    obtain ⟨hsent, hout⟩ := senders_refine dir epoch as
    have ht : m.ticket ∈ (dispensers (2 ^ 64)).outputs (fun _ ↦ 0) (as.map SenderCall.ctx) := by
      rw [← hout]
      exact List.mem_map_of_mem hm
    have hlast := mem_outputs_iff.mp ht
    rw [hmax, show uint64Max.toNat = 2 ^ 64 - 1 from rfl] at hlast
    have hle := final_le_limit (2 ^ 64) (as.map SenderCall.ctx) m.ctx
    exact senderCtxNext_exhausted ((hsent m.ctx).exhausted.mpr (by omega)) out

theorem nonceDiscipline_two_contexts :
    NonceDiscipline (fun b : Bool ↦ if b then 1 else 0) (fun _ ↦ .tx) (fun _ ↦ 0)
      [⟨true, 0, 3⟩, ⟨false, 0, 1⟩, ⟨true, 0, 2⟩] := by
  apply nonceDiscipline
  intro a b h
  cases a <;> cases b
  · rfl
  · exact absurd h (by decide)
  · exact absurd h (by decide)
  · rfl

end KemtlsMavlink
