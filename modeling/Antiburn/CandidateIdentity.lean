/-
Candidate identity is injective before hashing.

The digested text is read from the front: the JSON text of the activation ends with
its own bracket, the branch carries its length, the trigger has eight bytes, the
array of messages ends with its bracket, and the context ends where the first record
of the dependencies, tagged by a byte below five, or nothing follows.  The records are
without a count; each decodes, so that the rest of the text determines their list.
-/
import Antiburn.JsonReader
import Antiburn.Lib.PrefixCode

namespace Antiburn

/-! ### Bytes of a text -/

lemma toList_byteArray (bytes : ByteArray) : bytes.toList = bytes.data.toList := by
  have hloop : ∀ (n i : Nat) (r : List UInt8), bytes.size - i = n →
      ByteArray.toList.loop bytes i r = r.reverse ++ bytes.data.toList.drop i := by
    intro n
    induction n with
    | zero =>
      intro i r hn
      unfold ByteArray.toList.loop
      have hsize : ¬i < bytes.size := by omega
      rw [if_neg hsize, List.drop_of_length_le, List.append_nil]
      exact Nat.not_lt.mp hsize
    | succ n ih =>
      intro i r hn
      have hsize : i < bytes.size := by omega
      have hlen : i < bytes.data.toList.length := hsize
      unfold ByteArray.toList.loop
      rw [if_pos hsize, ih (i + 1) _ (by omega), List.reverse_cons, List.append_assoc,
        List.singleton_append, List.drop_eq_getElem_cons hlen]
      congr 2
      exact getElem!_pos bytes.data i hsize
  exact (hloop _ 0 [] rfl).trans (List.nil_append _)

lemma textBytes_eq (text : String) : textBytes text = text.toByteArray.data.toList :=
  toList_byteArray _

lemma textBytes_append (a b : String) : textBytes (a ++ b) = textBytes a ++ textBytes b := by
  simp only [textBytes_eq, String.toByteArray_append, ByteArray.data_append, Array.toList_append]

lemma textBytes_inj {a b : String} (h : textBytes a = textBytes b) : a = b := by
  rw [textBytes_eq, textBytes_eq] at h
  exact String.toByteArray_inj.mp (ByteArray.ext (Array.toList_inj.mp h))

lemma textBytes_empty : textBytes "" = [] := by
  rw [textBytes_eq]
  rfl

lemma length_textBytes (text : String) : (textBytes text).length = text.utf8ByteSize := by
  rw [textBytes_eq]
  rfl

lemma exists_text_of_append {a b : String} {rest : List UInt8}
    (h : textBytes b = textBytes a ++ rest) :
    ∃ text, b = a ++ text ∧ rest = textBytes text := by
  have hvalid : ∀ (l : List Char) (bytes : ByteArray),
      (l.utf8Encode ++ bytes).IsValidUTF8 → bytes.IsValidUTF8 := by
    intro l bytes
    induction l with
    | nil => intro h; rwa [List.utf8Encode_nil, ByteArray.empty_append] at h
    | cons c l ih =>
      intro h
      rw [List.utf8Encode_cons, ByteArray.append_assoc] at h
      exact ih (ByteArray.isValidUTF8_utf8Encode_singleton_append_iff.mp h)
  have hbytes : b.toByteArray = a.toByteArray ++ ⟨rest.toArray⟩ := by
    rw [textBytes_eq, textBytes_eq] at h
    refine ByteArray.ext (Array.toList_inj.mp ?_)
    rw [h, ByteArray.data_append, Array.toList_append]
  have hrest : (ByteArray.mk rest.toArray).IsValidUTF8 := by
    obtain ⟨l, hl⟩ := a.isValidUTF8
    refine hvalid l _ ?_
    rw [← hl, ← hbytes]
    exact b.isValidUTF8
  refine ⟨⟨⟨rest.toArray⟩, hrest⟩, String.toByteArray_inj.mp ?_, ?_⟩
  · rw [String.toByteArray_append]
    exact hbytes
  · rw [textBytes_eq]

/-! ### JSON texts -/

def WrittenNumber (number : Number) : Prop :=
  number.text.toList ≠ [] ∧ ∀ c ∈ number.text.toList, isNumberChar c = true

lemma writtenNumber_reads : ReadsNumbersBack (fun text => some ⟨text⟩) WrittenNumber where
  chars _ h := h.2
  nonempty _ h := h.1
  back _ _ := rfl

lemma writtenNumber_ofNat (n : Nat) : WrittenNumber (.ofNat n) := by
  refine ⟨fun hnil => Nat.toDigits_ne_nil (Nat.toList_repr.symm.trans hnil), fun c hc => ?_⟩
  rw [isNumberChar, JsonCodec.isDigit_of_mem_toString hc]
  rfl

lemma render_prefix {a b : Json} (ha : a.Numbers WrittenNumber) (hb : b.Numbers WrittenNumber)
    {text : String} (h : b.render = a.render ++ text)
    (hends : ∀ number, a = .number number → Ends text.toList) : a = b ∧ text = "" := by
  have hread : ∀ (value : Json), value.Numbers WrittenNumber → ∀ (rest : List Char),
      (∀ number, value = .number number → Ends rest) →
      value.render.toList ++ rest = b.render.toList →
      readValue (fun text => some ⟨text⟩) (b.render.toList.length + 1) (max a.nesting b.nesting)
        b.render.toList = if value.nesting ≤ max a.nesting b.nesting then some (value, rest)
          else none := by
    intro value hvalue rest hrest htext
    rw [← htext]
    refine readValue_render_of writtenNumber_reads value hvalue _ _ rest ?_ hrest
    rw [List.length_append]
    omega
  have hwhole := hread b hb [] (fun _ _ c hc => by cases hc) (List.append_nil _)
  have hfront := hread a ha text.toList hends (by rw [h, String.toList_append])
  rw [if_pos (Nat.le_max_right _ _)] at hwhole
  rw [if_pos (Nat.le_max_left _ _), hwhole, Option.some.injEq, Prod.mk.injEq] at hfront
  exact ⟨hfront.1.symm, String.toList_eq_nil_iff.mp hfront.2.symm⟩

def jsonBytes (value : Json) : List UInt8 := textBytes value.render

lemma jsonBytes_decodes : PrefixCode.Decodes jsonBytes
    (fun value => value.Numbers WrittenNumber ∧ ∀ number, value ≠ .number number)
    fun _ => True := by
  refine PrefixCode.of_prefix fun a b rest _ ha hb _ hcode => ?_
  obtain ⟨text, hrender, rfl⟩ := exists_text_of_append hcode
  obtain ⟨rfl, rfl⟩ := render_prefix ha.1 hb.1 hrender fun number heq => absurd heq (ha.2 number)
  exact ⟨rfl, textBytes_empty⟩

lemma ends_of_head {text : String} (h : ∀ b ∈ (textBytes text).head?, b < 5) :
    Ends text.toList := by
  intro c hc
  obtain ⟨rest, hrest⟩ : ∃ rest, text.toList = c :: rest := by
    cases hchars : text.toList with
    | nil => rw [hchars] at hc; cases hc
    | cons d rest =>
      rw [hchars] at hc
      cases hc
      exact ⟨rest, rfl⟩
  have htext : text = String.singleton c ++ String.ofList rest := by
    rw [← String.toList_inj, hrest, String.toList_append, String.toList_ofList,
      String.toList_singleton]
    rfl
  have hbyte : ∀ (hsize : c.utf8Size = 1), c.toUInt8 < 5 := by
    intro hsize
    refine h _ ?_
    rw [htext, textBytes_append, textBytes_eq]
    have hsingle : (String.singleton c).toByteArray.data.toList = [c.toUInt8] := by
      simp [List.utf8Encode_singleton, String.utf8EncodeChar_eq_singleton hsize]
    rw [hsingle]
    rfl
  by_contra hnumber
  rw [Bool.not_eq_false] at hnumber
  -- a character of numbers is one byte, and not below five
  have hrange : 43 ≤ c.val.toNat ∧ c.val.toNat ≤ 101 := by
    unfold isNumberChar at hnumber
    simp only [Bool.or_eq_true, beq_iff_eq] at hnumber
    rcases hnumber with ((((hdigit | rfl) | rfl) | rfl) | rfl) | rfl
    · unfold Char.isDigit at hdigit
      rw [Bool.and_eq_true, decide_eq_true_eq, decide_eq_true_eq] at hdigit
      have hlow : (48 : UInt32).toNat ≤ c.val.toNat := hdigit.1
      have hhigh : c.val.toNat ≤ (57 : UInt32).toNat := hdigit.2
      change 48 ≤ c.val.toNat at hlow
      change c.val.toNat ≤ 57 at hhigh
      omega
    all_goals decide
  have hsize : c.utf8Size = 1 := Char.utf8Size_eq_one_iff.mpr (by
    show c.val.toNat ≤ 127
    omega)
  have hsmall : c.toUInt8.toNat < 5 := hbyte hsize
  have hvalue : c.toUInt8.toNat = c.val.toNat % 256 := rfl
  omega

lemma jsonBytes_decodes_tagged : PrefixCode.Decodes jsonBytes
    (fun value => value.Numbers WrittenNumber) fun rest => ∀ b ∈ rest.head?, b < 5 := by
  refine PrefixCode.of_prefix fun a b rest more ha hb htail hcode => ?_
  obtain ⟨text, hrender, rfl⟩ := exists_text_of_append hcode
  have hhead : ∀ b ∈ (textBytes text).head?, b < 5 := by
    intro b hb
    refine htail b ?_
    rw [List.head?_append, Option.mem_def.mp hb]
    rfl
  obtain ⟨rfl, rfl⟩ := render_prefix ha hb hrender fun _ _ => ends_of_head hhead
  exact ⟨rfl, textBytes_empty⟩

/-! ### Machine integers and texts -/

lemma u64Bytes_decodes : PrefixCode.Decodes u64Bytes (· < 2 ^ 64) fun _ => True := by
  refine PrefixCode.of_length (n := 8) (fun value _ => by simp [u64Bytes]) fun a b ha hb heq => ?_
  have hdigits : ∀ (n : Nat) (a b : Nat), a < 256 ^ n → b < 256 ^ n →
      (∀ k < n, a / 256 ^ k % 256 = b / 256 ^ k % 256) → a = b := by
    intro n
    induction n with
    | zero => intro a b ha hb _; omega
    | succ n ih =>
      intro a b ha hb hdigit
      have hlow := hdigit 0 (Nat.succ_pos n)
      have hhigh : a / 256 = b / 256 := by
        refine ih _ _ ?_ ?_ fun k hk => ?_
        · rw [Nat.pow_succ] at ha
          exact Nat.div_lt_of_lt_mul (by rwa [Nat.mul_comm])
        · rw [Nat.pow_succ] at hb
          exact Nat.div_lt_of_lt_mul (by rwa [Nat.mul_comm])
        · have hnext := hdigit (k + 1) (Nat.succ_lt_succ hk)
          rwa [Nat.pow_succ, Nat.mul_comm, ← Nat.div_div_eq_div_mul, ← Nat.div_div_eq_div_mul]
            at hnext
      simp only [Nat.pow_zero, Nat.div_one] at hlow
      omega
  refine hdigits 8 a b (by simpa using ha) (by simpa using hb) fun k hk => ?_
  have hbyte := congrArg (fun bytes : List UInt8 => bytes[7 - k]?) heq
  have hplace : 7 - k < 8 := by omega
  have hback : 7 - (7 - k) = k := by omega
  simp only [u64Bytes, List.getElem?_map, List.getElem?_range hplace, Option.map_some,
    Option.some.injEq, hback] at hbyte
  have hnat := congrArg UInt8.toNat hbyte
  simpa using hnat

def ShortText (text : String) : Prop := text.utf8ByteSize < 2 ^ 64

instance (text : String) : Decidable (ShortText text) :=
  inferInstanceAs (Decidable (text.utf8ByteSize < 2 ^ 64))

lemma stringBytes_decodes : PrefixCode.Decodes stringBytes ShortText fun _ => True := by
  have hcntd := @PrefixCode.of_counted _ _ ShortText _ _ textBytes u64Bytes_decodes
    (fun text h => by rw [length_textBytes]; exact h) fun _ _ _ _ => textBytes_inj
  have hsame : stringBytes = fun text => u64Bytes (textBytes text).length ++ textBytes text := by
    funext text
    rw [length_textBytes]
    rfl
  rw [hsame]
  exact hcntd

/-! ### Dependencies -/

def EvidenceDependency.Stored : EvidenceDependency → Prop
  | message id version => ShortText id ∧ ShortText version
  | membershipThrough position => position < 2 ^ 64
  | context id version => ShortText id ∧ ShortText version
  | sourceEvidence id version => ShortText id ∧ ShortText version
  | sessionActivity epoch revision => ShortText epoch ∧ revision < 2 ^ 64

def EvidenceDependency.tag : EvidenceDependency → UInt8
  | message _ _ => 0
  | membershipThrough _ => 1
  | context _ _ => 2
  | sourceEvidence _ _ => 3
  | sessionActivity _ _ => 4

lemma EvidenceDependency.head_bytes (dependency : EvidenceDependency) :
    ∃ rest, dependency.bytes = dependency.tag :: rest ∧ dependency.tag < 5 := by
  refine ⟨dependency.bytes.tail, ?_, ?_⟩
  · cases dependency <;> rfl
  · cases dependency <;> exact of_decide_eq_true rfl

/-- **The records of dependencies decode.** -/
lemma EvidenceDependency.bytes_decodes :
    PrefixCode.Decodes EvidenceDependency.bytes EvidenceDependency.Stored fun _ => True := by
  -- two texts behind a tag
  have hpair : ∀ {a b a' b' : String} {x x' : List UInt8}, ShortText a ∧ ShortText b →
      ShortText a' ∧ ShortText b' →
      (stringBytes a ++ stringBytes b) ++ x = (stringBytes a' ++ stringBytes b') ++ x' →
      a = a' ∧ b = b' ∧ x = x' := by
    intro a b a' b' x x' h h' heq
    rw [List.append_assoc, List.append_assoc] at heq
    obtain ⟨ha, hrest⟩ := stringBytes_decodes a a' h.1 h'.1 _ _ trivial trivial heq
    obtain ⟨hb, hx⟩ := stringBytes_decodes b b' h.2 h'.2 _ _ trivial trivial hrest
    exact ⟨ha, hb, hx⟩
  intro d d' hd hd' x x' _ _ heq
  obtain ⟨rest, hrest, -⟩ := d.head_bytes
  obtain ⟨rest', hrest', -⟩ := d'.head_bytes
  have htag : d.tag = d'.tag := by
    rw [hrest, hrest', List.cons_append, List.cons_append, List.cons.injEq] at heq
    exact heq.1
  cases d with
  | message id version =>
    cases d' <;> cases htag
    obtain ⟨rfl, rfl, rfl⟩ := hpair hd hd' (List.tail_eq_of_cons_eq heq)
    exact ⟨rfl, rfl⟩
  | membershipThrough pos =>
    cases d' <;> cases htag
    obtain ⟨rfl, rfl⟩ := u64Bytes_decodes _ _ hd hd' _ _ trivial trivial
      (List.tail_eq_of_cons_eq heq)
    exact ⟨rfl, rfl⟩
  | context id version | sourceEvidence id version =>
    cases d' <;> cases htag
    obtain ⟨rfl, rfl, rfl⟩ := hpair hd hd' (List.tail_eq_of_cons_eq heq)
    exact ⟨rfl, rfl⟩
  | sessionActivity epoch rev =>
    cases d' <;> cases htag
    have hbytes : (stringBytes epoch ++ u64Bytes rev) ++ x =
        (stringBytes _ ++ u64Bytes _) ++ x' := List.tail_eq_of_cons_eq heq
    rw [List.append_assoc, List.append_assoc] at hbytes
    obtain ⟨rfl, hrest⟩ := stringBytes_decodes _ _ hd.1 hd'.1 _ _ trivial trivial hbytes
    obtain ⟨rfl, rfl⟩ := u64Bytes_decodes _ _ hd.2 hd'.2 _ _ trivial trivial hrest
    exact ⟨rfl, rfl⟩

/-! ### Activations -/

lemma ActivationId.numbers_toJson (id : ActivationId) : id.toJson.Numbers WrittenNumber := by
  obtain ⟨⟨environment, sessionCwd, run⟩, definitionId, generation⟩ := id
  cases run <;> simp [toJson, Json.Numbers, Json.NumbersEntries, writtenNumber_ofNat]

lemma ActivationId.toJson_inj {a b : ActivationId} (h : a.toJson = b.toJson) : a = b := by
  obtain ⟨⟨environment, sessionCwd, run⟩, definitionId, generation⟩ := a
  obtain ⟨⟨environment', sessionCwd', run'⟩, definitionId', generation'⟩ := b
  have hcount : ∀ {m n : Nat}, Number.ofNat m = Number.ofNat n → m = n := by
    intro m n heq
    have hread := congrArg Number.asU64 heq
    rwa [JsonCodec.asU64_ofNat, JsonCodec.asU64_ofNat, Option.some.injEq] at hread
  simp only [toJson, Json.object.injEq, List.cons.injEq, Prod.mk.injEq, true_and, and_true,
    Json.string.injEq, Json.number.injEq] at h
  obtain ⟨⟨henvir, hcwd, hrun⟩, hdefin, hgen⟩ := h
  have hsame : run = run' := by
    cases run <;> cases run' <;> simp at hrun ⊢
    exact hrun
  rw [henvir, hcwd, hsame, hdefin, hcount hgen]

/-! ### Candidates -/

structure CandidateParts where
  activation : ActivationId
  branch : BranchId
  trigger : ObservationPosition
  messages : List Json
  context : Json
  dependencies : List EvidenceDependency

namespace CandidateParts

/-- The text that is digested. -/
def bytes (parts : CandidateParts) : List UInt8 :=
  textBytes parts.activation.toJson.render ++ stringBytes parts.branch ++ u64Bytes parts.trigger ++
    textBytes (Json.array parts.messages).render ++ textBytes parts.context.render ++
    (parts.dependencies.map EvidenceDependency.bytes).flatten

/-- Integers and lengths are those of the machine, numbers are printed as numbers. -/
structure Stored (parts : CandidateParts) : Prop where
  branch : ShortText parts.branch
  trigger : parts.trigger < 2 ^ 64
  messages : (Json.array parts.messages).Numbers WrittenNumber
  context : parts.context.Numbers WrittenNumber
  dependencies : ∀ dependency ∈ parts.dependencies, dependency.Stored

end CandidateParts

/-- **Candidate identity is injective before hashing.**  The digested text determines every part
of the candidate. -/
theorem CandidateParts.bytes_determine_candidate {parts parts' : CandidateParts}
    (hstored : parts.Stored) (hstored' : parts'.Stored) (h : parts.bytes = parts'.bytes) :
    parts = parts' := by
  obtain ⟨activation, branch, trigger, messages, context, dependencies⟩ := parts
  obtain ⟨activation', branch', trigger', messages', context', dependencies'⟩ := parts'
  unfold bytes at h
  simp only [List.append_assoc] at h
  have hobject : ∀ (id : ActivationId) (number : Number), id.toJson ≠ .number number :=
    fun _ _ heq => Json.noConfusion heq
  obtain ⟨hactivation, hrest⟩ := jsonBytes_decodes _ _
    ⟨activation.numbers_toJson, hobject activation⟩ ⟨activation'.numbers_toJson, hobject activation'⟩
    _ _ trivial trivial h
  obtain ⟨hbranch, hrest⟩ := stringBytes_decodes branch branch' hstored.branch hstored'.branch _ _
    trivial trivial hrest
  obtain ⟨htrigger, hrest⟩ := u64Bytes_decodes trigger trigger' hstored.trigger hstored'.trigger _ _
    trivial trivial hrest
  obtain ⟨hmessages, hrest⟩ := jsonBytes_decodes (.array messages) (.array messages')
    ⟨hstored.messages, fun _ heq => Json.noConfusion heq⟩
    ⟨hstored'.messages, fun _ heq => Json.noConfusion heq⟩ _ _ trivial trivial hrest
  rw [Json.array.injEq] at hmessages
  -- what follows the context is empty or starts with a tag
  have htail : ∀ dependencies : List EvidenceDependency,
      ∀ b ∈ ((dependencies.map EvidenceDependency.bytes).flatten).head?, b < 5 := by
    intro dependencies b hb
    cases dependencies with
    | nil => cases hb
    | cons dependency rest =>
      obtain ⟨more, hmore, htag⟩ := dependency.head_bytes
      rw [List.map_cons, List.flatten_cons, hmore] at hb
      cases hb
      exact htag
  obtain ⟨hcontext, hrest⟩ := jsonBytes_decodes_tagged context context' hstored.context
    hstored'.context _ _ (htail dependencies) (htail dependencies') hrest
  have hdependencies : dependencies = dependencies' := PrefixCode.flatten_inj EvidenceDependency.bytes_decodes
    (fun dependency _ hnil => by
      obtain ⟨rest, hrest, -⟩ := dependency.head_bytes
      cases hrest.symm.trans hnil)
    hstored.dependencies hstored'.dependencies hrest
  rw [ActivationId.toJson_inj hactivation, hbranch, htrigger, hmessages, hcontext, hdependencies]

def exampleParts : CandidateParts where
  activation := ⟨⟨"", "/work", .live⟩, "triage", 3⟩
  branch := "main"
  trigger := 7
  messages := [.string "done"]
  context := .object [("count", .number (.ofNat 12))]
  dependencies := [.message "m1" "v1", .membershipThrough 7]

theorem bytes_determine_candidate_example :
    exampleParts = { exampleParts with
      dependencies := [.message "m1" "v1"] ++ [.membershipThrough 7] } := by
  have hstored : exampleParts.Stored := by
    refine ⟨by decide, by decide, ⟨trivial, trivial⟩, ⟨writtenNumber_ofNat 12, trivial⟩, ?_⟩
    intro dependency hdependency
    rcases List.mem_cons.mp hdependency with rfl | hdependency
    · exact ⟨by decide, by decide⟩
    · obtain rfl := List.mem_singleton.mp hdependency
      exact (by decide : (7 : Nat) < 2 ^ 64)
  exact CandidateParts.bytes_determine_candidate hstored hstored rfl

end Antiburn
