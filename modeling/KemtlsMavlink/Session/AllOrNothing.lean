import KemtlsMavlink.Session.Sending
import KemtlsMavlink.Session.WholeKeys

namespace KemtlsMavlink

open Library

variable {ρ : Type} {P : Platform ρ} {e : Env ρ} {s : HqcSession} {m : Hello} {fx : List Effect}

def Effect.isReply : Effect → Bool
  | .helloAck _ | .pkAck .. | .ctChunk _ | .hqcStatus .. | .hqcAbort .. => true
  | _ => false

def Effect.isFile : Effect → Bool
  | .fsOpen | .fsClose => true
  | _ => false

def Effect.IsRefusal : Effect → Prop
  | .helloAck ack => ack.accept = 0
  | .hqcStatus _ _ status _ => status ≠ .ok ∧ status ≠ .inProgress
  | _ => False

def replies (fx : List Effect) : List Effect := fx.filter Effect.isReply

@[simp] theorem replies_append (fx fx' : List Effect) :
    replies (fx ++ fx') = replies fx ++ replies fx' := List.filter_append ..

def FileClosed (fx : List Effect) : Prop :=
  fx.filter Effect.isFile = [] ∨ fx.filter Effect.isFile = [.fsOpen, .fsClose]

structure CleanRefusal (r : HqcSession × List Effect) : Prop where
  state : r.1.state = .idle
  pke : r.1.rx.pke = none
  pks : r.1.rx.pks = none
  cte : r.1.rx.cte.buf = none
  cts : r.1.rx.cts.buf = none
  len : r.1.rx.cts.len = 0
  file : FileClosed r.2
  reply : ∃ o, replies r.2 = [o] ∧ o.IsRefusal

structure CleanAccept (m : Hello) (r : HqcSession × List Effect) : Prop where
  state : r.1.state = .ctTx
  pke : ∃ pke, r.1.rx.pke = some pke ∧ pke.size = m.pkLen.toNat
  pks : ∃ pks, r.1.rx.pks = some pks ∧ pks.size = apKemPublicKeyBytes
  len : r.1.rx.cts.len = apKemCiphertextBytes
  acked : r.1.rx.cts.acked = List.replicate (fragments r.1.rx.mtu r.1.rx.cts.len) false
  file : FileClosed r.2
  reply : ∃ ack cts, r.1.rx.cts.buf = some cts ∧ cts.size = apKemCiphertextBytes ∧
    ack.accept = 1 ∧ replies r.2 = .helloAck ack ::
      (List.range (min r.1.rx.window (fragments r.1.rx.mtu r.1.rx.cts.len))).map
        (fragment cts m.sessionId 1 r.1.rx.mtu r.1.rx.cts.len)

def Silent (fx : List Effect) : Prop := ∀ o ∈ fx, o.isReply = false ∧ o.isFile = false

theorem Silent.replies_eq (h : Silent fx) : replies fx = [] :=
  List.filter_eq_nil_iff.mpr fun o ho ↦ Bool.eq_false_iff.mp (h o ho).1

theorem Silent.files_eq (h : Silent fx) : fx.filter Effect.isFile = [] :=
  List.filter_eq_nil_iff.mpr fun o ho ↦ Bool.eq_false_iff.mp (h o ho).2

theorem readPks_silent (fs : PdkFs) (pksz fuel got : Nat) (pks : Block) :
    Silent (readPks fs pksz fuel got pks).2.1 := by
  induction fuel generalizing got pks with
  | zero => exact List.forall_mem_nil _
  | succ fuel ih =>
    unfold readPks
    split
    · dsimp only
      split
      · exact List.forall_mem_nil _
      · exact List.forall_mem_cons.mpr ⟨⟨rfl, rfl⟩, ih _ _⟩
    · exact List.forall_mem_nil _

theorem pkszWarning_silent (pksz : Nat) : Silent (pkszWarning pksz) := by
  unfold pkszWarning
  split
  · exact List.forall_mem_singleton.mpr ⟨rfl, rfl⟩
  · exact List.forall_mem_nil _

/-- What `handle_hqc_hello` does to refuse: with a `HELLO_ACK` or without, it answers
once. -/
structure Refusal.Clean (r : Refusal) : Prop where
  file : FileClosed (r.before ++ r.after)
  reply : match r.status with
    | none => ∃ o, replies (r.before ++ r.after) = [o] ∧ o.IsRefusal
    | some _ => replies r.before = [] ∧ replies r.after = []

theorem refuse_clean (hs : s.state = .idle) (hc : s.rx.cte.buf = none) (hl : s.rx.cts.len = 0)
    {r : Refusal} (h : r.Clean) : CleanRefusal (refuse P s r) := by
  obtain ⟨hf, hr⟩ := h
  unfold refuse
  cases hst : r.status with
  | none =>
    rw [hst] at hr
    exact ⟨hs, rfl, rfl, hc, rfl, hl, hf, hr⟩
  | some status =>
    rw [hst] at hr
    refine ⟨hs, rfl, rfl, hc, rfl, hl, ?_, .helloAck (nackOf s status), ?_, rfl⟩
    · simpa [FileClosed, Effect.isFile] using hf
    · rw [replies_append, hr.1, List.nil_append, replies, List.filter_cons_of_pos rfl]
      exact congrArg _ hr.2

theorem pdkError_clean {fs : PdkFs} {r : Refusal} (h : pdkError fs = some r) : r.Clean := by
  unfold pdkError at h
  dsimp only at h
  split_ifs at h <;> cases h
  · exact ⟨.inl rfl, rfl, rfl⟩
  · exact ⟨.inl rfl, rfl, rfl⟩
  · exact ⟨.inr rfl, rfl, rfl⟩
  · exact ⟨.inr rfl, rfl, rfl⟩

def Loading (fx : List Effect) : Prop :=
  fx.filter Effect.isFile = [.fsOpen, .fsClose] ∧ replies fx = []

theorem Loading.append {fx' : List Effect} (h : Loading fx) (h' : Silent fx') :
    Loading (fx ++ fx') := by
  constructor
  · rw [List.filter_append, h.1, h'.files_eq, List.append_nil]
  · rw [replies_append, h.2, h'.replies_eq, List.append_nil]

theorem Silent.loading (h : Silent fx) : Loading (Effect.fsOpen :: fx ++ [Effect.fsClose]) := by
  constructor
  · rw [List.filter_append, List.filter_cons_of_pos rfl, h.files_eq]
    rfl
  · change replies (fx ++ [.fsClose]) = []
    rw [replies_append, h.replies_eq]
    rfl

theorem sendText_silent (severity : Severity) (fmt : String) (args : List TextArg) :
    Silent [.sendText severity fmt args] := List.forall_mem_singleton.mpr ⟨rfl, rfl⟩

theorem readPdk_clean (P : Platform ρ) (e : Env ρ) (sid : UInt64) (h : PdkHeader) :
    match readPdk P e sid h with
    | .error r => r.Clean
    | .ok q => Loading q.2 := by
  unfold readPdk
  cases e.callocPks with
  | none => exact ⟨.inr rfl, _, rfl, by simp [Effect.IsRefusal]⟩
  | some init =>
    dsimp only
    have hr := (readPks_silent e.fs h.pksz h.pksz 0 (Block.calloc apKemPublicKeyBytes init)).loading
    have hw := hr.append (pkszWarning_silent h.pksz)
    generalize readPks e.fs h.pksz h.pksz 0 (Block.calloc apKemPublicKeyBytes init) = r at hr hw
    split_ifs with hshort hfp
    · refine ⟨.inr ?_, .hqcStatus sid 0 .internal 3, ?_, by simp [Effect.IsRefusal]⟩
      · rw [List.append_nil, List.filter_append, hr.1]
        rfl
      · rw [List.append_nil, replies_append, hr.2]
        rfl
    · have ht := hw.append (sendText_silent .error "HQC: PDK fp mismatch hdr=%s calc=%s"
        [.hex h.fp, .hex (P.sha256 (r.1.read 0 h.pksz)).toList])
      exact ⟨.inr (by rw [List.append_nil]; exact ht.1), ht.2, rfl⟩
    · exact hw

theorem loadPks_clean (P : Platform ρ) (e : Env ρ) (sid : UInt64) :
    match loadPks P e sid with
    | .error r => r.Clean
    | .ok q => Loading q.2 := by
  unfold loadPks
  cases he : pdkError e.fs with
  | some r => exact pdkError_clean he
  | none => exact readPdk_clean P e sid _

section Accept

variable {k : PdkKey} (hm : 0 < s.rx.mtu) (hid : s.rx.sessionId = m.sessionId)
  (hp : ∃ pke, s.rx.pke = some pke ∧ pke.size = m.pkLen.toNat)
  (hk : k.pks.size = apKemPublicKeyBytes) (hf : Loading fx)

include hm hid hp hk hf

theorem helloAccept_clean {cts : Block} (hc : cts.size = apKemCiphertextBytes)
    (ss : Bytes apKemBytes) :
    CleanAccept m ((helloAccept P s k cts ss).1, fx ++ (helloAccept P s k cts ss).2) := by
  have hw := sendWindow_eq hm cts s.rx.sessionId 1 apKemCiphertextBytes s.rx.window 0
  rw [cut_zero, Nat.sub_zero, ← List.range_eq_range', hid] at hw
  have heff : (helloAccept P s k cts ss).2 = .helloAck (ackOf s (helloRs P s k)) ::
      (List.range (min s.rx.window (fragments s.rx.mtu apKemCiphertextBytes))).map
        (fragment cts m.sessionId 1 s.rx.mtu apKemCiphertextBytes) := by
    rw [helloAccept, hid, hw]
  refine ⟨rfl, hp, ⟨k.pks, rfl, hk⟩, rfl, rfl, .inr ?_, ackOf s (helloRs P s k), cts, rfl, hc, rfl,
    ?_⟩
  · rw [heff, List.filter_append, hf.1, List.filter_cons_of_neg (by simp [Effect.isFile]),
      List.filter_eq_nil_iff.mpr, List.append_nil]
    intro o ho
    obtain ⟨i, -, rfl⟩ := List.mem_map.mp ho
    exact Bool.false_ne_true
  · rw [replies_append, hf.2, List.nil_append, heff]
    refine List.filter_eq_self.mpr (List.forall_mem_cons.mpr ⟨rfl, fun o ho ↦ ?_⟩)
    obtain ⟨i, -, rfl⟩ := List.mem_map.mp ho
    rfl

theorem helloEncap_clean (hs : s.state = .idle) (hc : s.rx.cte.buf = none)
    (hl : s.rx.cts.len = 0) :
    CleanAccept m (helloEncap P e s k fx) ∨ CleanRefusal (helloEncap P e s k fx) := by
  unfold helloEncap
  cases e.mallocCts with
  | none =>
    refine .inr (refuse_clean hs hc hl ⟨.inr ?_, hf.2, rfl⟩)
    exact (hf.append (sendText_silent _ _ _)).1
  | some init =>
    dsimp only
    generalize P.apKemEnc _ _ _ = out
    have henc : Loading (fx ++ [.apKemEnc 1 k.pks out.ok]) :=
      hf.append (List.forall_mem_singleton.mpr ⟨rfl, rfl⟩)
    split_ifs
    · have htexts : Silent (kemEncTexts k) := by
        simp [Silent, kemEncTexts, Effect.isReply, Effect.isFile]
      have h := henc.append htexts
      refine .inr (refuse_clean hs hc hl ⟨.inr ?_, h.2, rfl⟩)
      exact (h.append (sendText_silent _ _ _)).1
    · exact .inl (helloAccept_clean hm hid hp hk henc rfl _)

end Accept

/-- Whatever fails on the way, a `HELLO` is accepted with everything in place, or refused
with nothing left behind. -/
theorem hello_all_or_nothing (P : Platform ρ) (e : Env ρ) (s : HqcSession) (m : Hello) :
    CleanAccept m (handleHqcHello P e s m) ∨ CleanRefusal (handleHqcHello P e s m) := by
  have h := handleHqcHello_cases P e s m
  have hl := loadPks_clean P e m.sessionId
  generalize handleHqcHello P e s m = r at h ⊢
  cases h with
  | field alg status text hf =>
    refine .inr (refuse_clean rfl rfl rfl ?_)
    unfold helloFieldError at hf
    split_ifs at hf <;> cases hf <;> exact ⟨.inl rfl, rfl, rfl⟩
  | noPke hf hp => exact .inr (refuse_clean rfl rfl rfl ⟨.inl rfl, rfl, rfl⟩)
  | noKey init r hf hp hk =>
    rw [hk] at hl
    exact .inr (refuse_clean rfl rfl rfl hl)
  | encap init k fx hf hp hk =>
    rw [hk] at hl
    exact helloEncap_clean (Nat.zero_lt_succ 219) rfl ⟨_, rfl, rfl⟩ (loadPks_spec hk).2.1
      (hl.append (sendText_silent _ _ _)) rfl rfl rfl

end KemtlsMavlink
