import KemtlsMavlink.Library.HashChain
import KemtlsMavlink.Session.Sample

namespace KemtlsMavlink

open Library

variable {ρ : Type} (P : Platform ρ)

theorem thUpdate_eq (th : Bytes 32) (msg : List UInt8) :
    thUpdate P th msg = P.sha256 (th.toList ++ msg) := by
  unfold thUpdate
  split_ifs with h
  · rw [List.eq_nil_of_length_eq_zero h, List.append_nil]
  · rfl

def transcriptChain : HashChain (Bytes 32) (List UInt8) (List UInt8) :=
  ⟨P.sha256, fun th msg ↦ th.toList ++ msg⟩

namespace Record

def tag : Record → UInt32
  | .hello _ => 61000
  | .helloAck _ => 61001
  | .pkSummary .. => 61002
  | .ctSummary .. => 61003
  | .finish _ => 61005
  | .abort .. => 61006

def body : Record → List UInt8
  | .hello m => le64 m.sessionId ++ le32 m.pkLen ++ [m.version, m.suiteId, m.flags, m.aeadOffer]
  | .helloAck ack => le64 ack.sessionId ++
      [(ack.mtu &&& 0xFF).toUInt8, ((ack.mtu >>> 8) &&& 0xFF).toUInt8, ack.window,
        ack.requiredAlg, ack.accept, P.kexCode ack.status] ++ le32 ack.ctELen ++ le32 ack.ctSLen
  | .pkSummary sessionId pkLen _ => le64 sessionId ++ le32 pkLen
  | .ctSummary sessionId kind ctLen _ => le64 sessionId ++ [kind] ++ le32 ctLen
  | .finish m => le64 m.sessionId ++ [m.role, m.tagLen]
  | .abort sessionId status detail value =>
    le64 sessionId ++ [P.kexCode status, detail] ++ le32 value

def parts : Record → List (List UInt8)
  | .hello m => [m.handshakeSalt.toList, m.rc.toList]
  | .helloAck ack => [ack.rs.toList]
  | .pkSummary _ _ sha => [sha.toList]
  | .ctSummary _ _ _ sha => [sha.toList]
  | .finish m => if m.tagLen > 0 then [m.tag.toList.take m.tagLen.toNat] else []
  | .abort .. => []

def updates (r : Record) : List (List UInt8) := (le32 r.tag ++ r.body P) :: r.parts

theorem absorb_eq (th : Bytes 32) (r : Record) :
    r.absorb P th = (transcriptChain P).run th (r.updates P) := by
  have hrun : ∀ msgs, (transcriptChain P).run th msgs = msgs.foldl (thUpdate P) th := by
    intro msgs
    exact congrArg (fun f ↦ List.foldl f th msgs) (funext₂ fun th msg ↦ (thUpdate_eq P th msg).symm)
  rw [hrun]
  cases r with
  | finish m =>
    have htake : m.tagLen = 32 → m.tag.toList.take m.tagLen.toNat = m.tag.toList := by
      intro h
      rw [h]
      exact List.take_of_length_le (by simp)
    simp only [absorb, thAddFinish, updates, tag, body, parts]
    split_ifs with h₃₂ hpos hpos
    · simp [htake h₃₂]
    · simp [h₃₂] at hpos
    · simp
    · simp
  | _ => simp [absorb, thAddHello, thAddHelloAck, thAddPkSummary, thAddCtSummary, thAddAbort,
      updates, tag, body, parts]

/-- Two records of one kind with the same hashed fields: of a status its byte
counts, of a tag the bytes below `tag_len`. -/
def Agree : Record → Record → Prop
  | .hello m, .hello m' => m = m'
  | .helloAck ack, .helloAck ack' =>
    { ack with status := ack'.status } = ack' ∧ P.kexCode ack.status = P.kexCode ack'.status
  | .pkSummary sid pkLen sha, .pkSummary sid' pkLen' sha' =>
    sid = sid' ∧ pkLen = pkLen' ∧ sha = sha'
  | .ctSummary sid kind ctLen sha, .ctSummary sid' kind' ctLen' sha' =>
    sid = sid' ∧ kind = kind' ∧ ctLen = ctLen' ∧ sha = sha'
  | .finish m, .finish m' => m.sessionId = m'.sessionId ∧ m.role = m'.role ∧
    m.tagLen = m'.tagLen ∧ m.tag.toList.take m.tagLen.toNat = m'.tag.toList.take m'.tagLen.toNat
  | .abort sid status detail value, .abort sid' status' detail' value' =>
    sid = sid' ∧ P.kexCode status = P.kexCode status' ∧ detail = detail' ∧ value = value'
  | _, _ => False

def TagFits : Record → Prop
  | .finish m => m.tagLen ≤ 32
  | _ => True

variable {P}

theorem hello_agree {m m' : Hello} {xs ys : List (List UInt8)}
    (hb : (Record.hello m).body P = (Record.hello m').body P)
    (hp : (Record.hello m).parts ++ xs = (Record.hello m').parts ++ ys) : m = m' ∧ xs = ys := by
  simp only [body, List.append_assoc] at hb
  obtain ⟨hsid, hb⟩ := le64_append_inj hb
  obtain ⟨hlen, hb⟩ := le32_append_inj hb
  simp only [List.cons.injEq, and_true] at hb
  simp only [parts, List.cons_append, List.nil_append, List.cons.injEq, Vector.toList_inj] at hp
  obtain ⟨hv, hs, hf, ha⟩ := hb
  obtain ⟨hsalt, hrc, htail⟩ := hp
  cases m
  cases m'
  simp_all

theorem helloAck_agree {ack ack' : HelloAck} {xs ys : List (List UInt8)}
    (hb : (Record.helloAck ack).body P = (Record.helloAck ack').body P)
    (hp : (Record.helloAck ack).parts ++ xs = (Record.helloAck ack').parts ++ ys) :
    (Record.helloAck ack).Agree P (.helloAck ack') ∧ xs = ys := by
  simp only [body, List.append_assoc] at hb
  obtain ⟨hsid, hb⟩ := le64_append_inj hb
  simp only [List.cons_append, List.nil_append, List.cons.injEq] at hb
  obtain ⟨h₀, h₁, hw, hr, ha, hst, hb⟩ := hb
  obtain ⟨hle, hb⟩ := le32_append_inj hb
  simp only [parts, List.cons_append, List.nil_append, List.cons.injEq, Vector.toList_inj] at hp
  obtain ⟨hrs, htail⟩ := hp
  have hls := le32_inj hb
  have hmtu := le16_inj h₀ h₁
  refine ⟨⟨?_, hst⟩, htail⟩
  cases ack
  cases ack'
  simp_all

theorem finish_agree {m m' : Finish} {xs ys : List (List UInt8)}
    (hb : (Record.finish m).body P = (Record.finish m').body P)
    (hp : (Record.finish m).parts ++ xs = (Record.finish m').parts ++ ys) :
    (Record.finish m).Agree P (.finish m') ∧ xs = ys := by
  obtain ⟨hsid, hb⟩ := le64_append_inj hb
  simp only [List.cons.injEq, and_true] at hb
  obtain ⟨hrole, hlen⟩ := hb
  simp only [parts, hlen] at hp
  split_ifs at hp with hpos
  · simp only [List.cons_append, List.nil_append, List.cons.injEq] at hp
    exact ⟨⟨hsid, hrole, hlen, by rw [hlen]; exact hp.1⟩, hp.2⟩
  · have hz : m'.tagLen.toNat = 0 :=
      Nat.le_zero.mp (UInt8.le_iff_toNat_le.mp (UInt8.not_lt.mp hpos))
    exact ⟨⟨hsid, hrole, hlen, by rw [hlen, hz]; rfl⟩, by simpa using hp⟩

/-- The updates of a record show all that is hashed of it, and where they end. -/
theorem agree_of_updates {a b : Record} {xs ys : List (List UInt8)}
    (h : a.updates P ++ xs = b.updates P ++ ys) : a.Agree P b ∧ xs = ys := by
  obtain ⟨hhead, hp⟩ := List.cons.inj h
  obtain ⟨htag, hb⟩ := le32_append_inj hhead
  cases a with
  | hello m =>
    cases b with
    | hello m' => exact hello_agree hb hp
    | _ => simp [tag] at htag
  | helloAck ack =>
    cases b with
    | helloAck ack' => exact helloAck_agree hb hp
    | _ => simp [tag] at htag
  | pkSummary sid pkLen sha =>
    cases b with
    | pkSummary sid' pkLen' sha' =>
      obtain ⟨hsid, hb⟩ := le64_append_inj hb
      obtain ⟨hsha, htail⟩ := List.cons.inj hp
      exact ⟨⟨hsid, le32_inj hb, Vector.toList_inj.mp hsha⟩, htail⟩
    | _ => simp [tag] at htag
  | ctSummary sid kind ctLen sha =>
    cases b with
    | ctSummary sid' kind' ctLen' sha' =>
      simp only [body, List.append_assoc] at hb
      obtain ⟨hsid, hb⟩ := le64_append_inj hb
      obtain ⟨hkind, hb⟩ := List.cons.inj hb
      obtain ⟨hsha, htail⟩ := List.cons.inj hp
      exact ⟨⟨hsid, hkind, le32_inj hb, Vector.toList_inj.mp hsha⟩, htail⟩
    | _ => simp [tag] at htag
  | finish m =>
    cases b with
    | finish m' => exact finish_agree hb hp
    | _ => simp [tag] at htag
  | abort sid status detail value =>
    cases b with
    | abort sid' status' detail' value' =>
      simp only [body, List.append_assoc] at hb
      obtain ⟨hsid, hb⟩ := le64_append_inj hb
      simp only [List.cons_append, List.nil_append, List.cons.injEq] at hb
      obtain ⟨hst, hd, hb⟩ := hb
      exact ⟨⟨hsid, hst, hd, le32_inj hb⟩, hp⟩
    | _ => simp [tag] at htag

end Record

def transcriptUpdates (rs : List Record) : List (List UInt8) := rs.flatMap (Record.updates P)

/-- The byte strings that are hashed while the records are absorbed. -/
def hashedInputs (rs : List Record) : List (List UInt8) :=
  (transcriptChain P).hashed (Bytes.zeros 32) (transcriptUpdates P rs)

theorem transcriptHash_eq (rs : List Record) : transcriptHash P rs =
    (transcriptChain P).run (Bytes.zeros 32) (transcriptUpdates P rs) := by
  unfold transcriptHash transcriptUpdates
  generalize Bytes.zeros 32 = th
  induction rs generalizing th with
  | nil => rfl
  | cons r rs ih =>
    rw [List.foldl_cons, ih, Record.absorb_eq, List.flatMap_cons]
    exact List.foldl_append.symm

/-- Two transcripts with one hash agree record by record, or two different byte
strings hashed for them collide, or one is a preimage of the zeros they start from. -/
theorem transcript_binds {rs rs' : List Record} (ht : ∀ r ∈ rs, r.TagFits)
    (ht' : ∀ r ∈ rs', r.TagFits) (he : transcriptHash P rs = transcriptHash P rs')
    (hd : ¬ List.Forall₂ (Record.Agree P) rs rs') :
    (∃ x ∈ hashedInputs P rs ++ hashedInputs P rs', ∃ y ∈ hashedInputs P rs ++ hashedInputs P rs',
        x ≠ y ∧ P.sha256 x = P.sha256 y) ∨
      ∃ x ∈ hashedInputs P rs ++ hashedInputs P rs', P.sha256 x = Bytes.zeros 32 := by
  have hinj : ∀ d m d' m', (transcriptChain P).input d m = (transcriptChain P).input d' m' →
      d = d' ∧ m = m' := by
    intro d m d' m' h
    obtain ⟨hd, hm⟩ := List.append_inj h (by simp)
    exact ⟨Vector.toList_inj.mp hd, hm⟩
  have hne : transcriptUpdates P rs ≠ transcriptUpdates P rs' := by
    intro h
    apply hd
    exact forall₂_of_flatMap_eq (Q := Record.TagFits) (fun _ ↦ List.cons_ne_nil _ _)
      (fun _ _ _ _ _ _ ↦ Record.agree_of_updates) ht ht' h
  rw [transcriptHash_eq, transcriptHash_eq] at he
  exact HashChain.broken_of_run_eq hinj he hne

def constantPlatform : Platform UInt8 := { samplePlatform with sha256 := fun _ ↦ Bytes.zeros 32 }

theorem transcript_binds_constant :
    (∃ x ∈ hashedInputs constantPlatform [.hello (sampleHello 1)] ++
        hashedInputs constantPlatform [.hello (sampleHello 2)],
      ∃ y ∈ hashedInputs constantPlatform [.hello (sampleHello 1)] ++
          hashedInputs constantPlatform [.hello (sampleHello 2)],
        x ≠ y ∧ constantPlatform.sha256 x = constantPlatform.sha256 y) ∨
      ∃ x ∈ hashedInputs constantPlatform [.hello (sampleHello 1)] ++
          hashedInputs constantPlatform [.hello (sampleHello 2)],
        constantPlatform.sha256 x = Bytes.zeros 32 := by
  have hfits : ∀ pkLen, ∀ r ∈ [Record.hello (sampleHello pkLen)], r.TagFits :=
    fun _ ↦ List.forall_mem_singleton.mpr trivial
  apply transcript_binds constantPlatform (hfits 1) (hfits 2) rfl
  intro h
  cases h with
  | cons hagree _ =>
    have hlen : (1 : UInt32) = 2 := congrArg Hello.pkLen hagree
    exact absurd hlen (by decide)

end KemtlsMavlink
