/-
  What the text that is trained on says of the conversation (`TrainingExample.format_for_causal_lm`).

  The messages are joined with plain markers, and their contents are not escaped.  Reading the text from the left,
  a content ends at the next marker: `content_unique` says that there is one way to cut it as long as no content
  has a marker inside, and `format_cutAtMarker` what happens when one has.
-/
import FinancialRag.Training.Splits

set_option linter.unusedVariables false

namespace FinancialRag.Training

/-! ## The text of the messages -/

/-- `<|role|>` -/
def opening (role : String) : List Char := '<' :: '|' :: (role.toList ++ ['|', '>'])

/-- What stands between two contents: the start of the next turn. -/
def turnMarker (role : String) : List Char := '\n' :: '\n' :: opening role

def block (message : TrainingMessage) : List Char := opening message.role ++ '\n' :: message.content.toList

/-- Messages behind another one. -/
def following (messages : List TrainingMessage) : List Char := messages.flatMap fun message => '\n' :: '\n' :: block message

/-- The role of a turn behind the first message. -/
def IsTurn (role : String) : Prop := role = "user" ∨ role = "assistant"

/-- No content begins a turn of its own. -/
def MarkerFree (messages : List TrainingMessage) : Prop :=
  ∀ message ∈ messages, ∀ role, IsTurn role → ¬ turnMarker role <:+: message.content.toList

theorem markerFree_of_notMem_bar {messages : List TrainingMessage}
    (h : messages.all (fun message => !message.content.toList.contains '|') = true) : MarkerFree messages := by
  intro message hmem role hrole hin
  have hbar : '|' ∉ message.content.toList := by simpa using List.all_eq_true.mp h message hmem
  refine hbar (hin.subset ?_)
  simp [turnMarker, opening]

theorem intercalate_blocks (message : TrainingMessage) (messages : List TrainingMessage) :
    ['\n', '\n'].intercalate ((message :: messages).map block) = block message ++ following messages := by
  induction messages generalizing message with
  | nil => simp [following]
  | cons next messages ih =>
    rw [List.map_cons, List.map_cons, List.intercalate_cons_cons, ← List.map_cons, ih]
    simp [following]

/-- The serialized text, from its first message on. -/
theorem toList_formatForCausalLm {r : TrainingExample} {message : TrainingMessage} {messages : List TrainingMessage}
    (h : r.messages = message :: messages) :
    r.formatForCausalLm.toList = block message ++ following messages ++ "\n<|end|>".toList := by
  have hblocks : ((r.messages.map fun m => "<|" ++ m.role ++ "|>\n" ++ m.content).map String.toList) =
      (message :: messages).map block := by
    rw [h, List.map_map]
    refine List.map_congr_left fun m _ => ?_
    simp [block, opening]
  unfold TrainingExample.formatForCausalLm PyText.join
  rw [String.toList_append, String.toList_ofList, hblocks]
  exact congrArg (· ++ _) (intercalate_blocks message messages)

/-! ## Reading it back -/

/-- Messages behind a content begin with a marker, if there are any. -/
theorem following_cases {messages : List TrainingMessage} (h : ∀ message ∈ messages, IsTurn message.role) :
    following messages = [] ∨ ∃ role, IsTurn role ∧ turnMarker role <+: following messages := by
  cases messages with
  | nil => exact Or.inl rfl
  | cons message messages =>
    refine Or.inr ⟨message.role, h message List.mem_cons_self, ?_⟩
    refine ⟨'\n' :: message.content.toList ++ following messages, ?_⟩
    simp [turnMarker, following, block]

/-- A marker has its two line ends in front only. -/
theorem lineEnd_notMem_opening {role : String} (h : IsTurn role) : '\n' ∉ opening role := by
  rcases h with rfl | rfl
  · decide
  · decide

/-- **A content ends where the next turn begins**: what another reading would add to it has no marker inside, and no
    marker begins in it that ends behind it. -/
theorem overhang_eq_nil {extra rest : List Char} {role : String} (hrole : IsTurn role)
    (hmarker : turnMarker role <+: extra ++ rest)
    (hrest : rest = [] ∨ ∃ role', IsTurn role' ∧ turnMarker role' <+: rest)
    (hfree : ¬ turnMarker role <:+: extra) : extra = [] := by
  by_contra hne
  have hshort : extra.length < (turnMarker role).length := by
    by_contra hlong
    exact hfree (List.prefix_of_prefix_length_le hmarker (List.prefix_append extra rest)
      (not_lt.mp hlong)).isInfix
  obtain ⟨after, hafter⟩ := List.prefix_of_prefix_length_le (List.prefix_append extra rest) hmarker hshort.le
  have hbegins : after <+: rest := by
    rw [← hafter] at hmarker
    exact (List.prefix_append_right_inj extra).mp hmarker
  have hpos : after ≠ [] := by
    rintro rfl
    rw [List.append_nil] at hafter
    rw [hafter] at hshort
    exact lt_irrefl _ hshort
  rcases hrest with rfl | ⟨role', hrole', hmarker'⟩
  · exact hpos (List.prefix_nil.mp hbegins)
  · -- what is left of the marker cannot be the start of a marker
    obtain ⟨tail, htail⟩ := hbegins
    obtain ⟨tail', htail'⟩ := hmarker'
    have hsame : after ++ tail = turnMarker role' ++ tail' := htail.trans htail'.symm
    have hopening := lineEnd_notMem_opening hrole
    cases extra with
    | nil => exact hne rfl
    | cons first extra =>
      obtain ⟨-, hafter⟩ := List.cons.inj hafter
      cases extra with
      | nil =>
        -- one line end is left, and no second one follows
        have hafter : after = '\n' :: opening role := hafter
        rw [hafter] at hsame
        cases (List.cons.inj (List.cons.inj hsame).2).1
      | cons second extra =>
        obtain ⟨-, hafter⟩ := List.cons.inj hafter
        cases after with
        | nil => exact hpos rfl
        | cons c after =>
          obtain ⟨rfl, -⟩ := List.cons.inj hsame
          refine hopening ?_
          rw [← hafter]
          exact List.mem_append_right _ List.mem_cons_self

/-- **There is one way to cut a text into a content and what follows.** -/
theorem content_unique {c c' rest rest' : List Char} (h : c ++ rest = c' ++ rest')
    (hrest : rest = [] ∨ ∃ role, IsTurn role ∧ turnMarker role <+: rest)
    (hrest' : rest' = [] ∨ ∃ role, IsTurn role ∧ turnMarker role <+: rest')
    (hfree : ∀ role, IsTurn role → ¬ turnMarker role <:+: c)
    (hfree' : ∀ role, IsTurn role → ¬ turnMarker role <:+: c') : c = c' ∧ rest = rest' := by
  -- one of the contents goes on behind the other
  have hover : ∀ {a extra r r' : List Char}, r = extra ++ r' →
      (r = [] ∨ ∃ role, IsTurn role ∧ turnMarker role <+: r) →
      (r' = [] ∨ ∃ role, IsTurn role ∧ turnMarker role <+: r') →
      (∀ role, IsTurn role → ¬ turnMarker role <:+: a ++ extra) → extra = [] := by
    intro a extra r r' hr hcases hcases' hno
    rcases hcases with rfl | ⟨role, hrole, hmarker⟩
    · exact (List.append_eq_nil_iff.mp hr.symm).1
    · rw [hr] at hmarker
      exact overhang_eq_nil hrole hmarker hcases' fun hin => hno role hrole (hin.trans (List.suffix_append a extra).isInfix)
  rcases List.append_eq_append_iff.mp h with ⟨extra, rfl, hr⟩ | ⟨extra, rfl, hr⟩
  · obtain rfl := hover hr hrest hrest' hfree'
    exact ⟨(List.append_nil c).symm, hr⟩
  · obtain rfl := hover hr hrest' hrest hfree
    exact ⟨List.append_nil c', hr.symm⟩

/-! ## The messages -/

/-- The role of a message. -/
def IsRole (role : String) : Prop := role = "system" ∨ IsTurn role

theorem bar_notMem_role {role : String} (h : IsRole role) : '|' ∉ role.toList := by
  rcases h with rfl | rfl | rfl
  · decide
  · decide
  · decide

/-- A message and what follows it can be told apart. -/
theorem block_unique {message message' : TrainingMessage} {rest rest' : List Char}
    (h : block message ++ rest = block message' ++ rest') (hrole : IsRole message.role) (hrole' : IsRole message'.role)
    (hrest : rest = [] ∨ ∃ role, IsTurn role ∧ turnMarker role <+: rest)
    (hrest' : rest' = [] ∨ ∃ role, IsTurn role ∧ turnMarker role <+: rest')
    (hfree : ∀ role, IsTurn role → ¬ turnMarker role <:+: message.content.toList)
    (hfree' : ∀ role, IsTurn role → ¬ turnMarker role <:+: message'.content.toList) :
    message = message' ∧ rest = rest' := by
  obtain ⟨role, content⟩ := message
  obtain ⟨role', content'⟩ := message'
  have hsplit : role.toList ++ '|' :: ('>' :: '\n' :: (content.toList ++ rest)) =
      role'.toList ++ '|' :: ('>' :: '\n' :: (content'.toList ++ rest')) := by
    simpa [block, opening] using h
  obtain ⟨hroles, hcontents⟩ := PyText.append_cons_inj (bar_notMem_role hrole) (bar_notMem_role hrole') hsplit
  obtain ⟨hcontent, hrests⟩ := content_unique (List.cons.inj (List.cons.inj hcontents).2).2 hrest hrest' hfree hfree'
  obtain rfl := String.toList_injective hroles
  obtain rfl := String.toList_injective hcontent
  exact ⟨rfl, hrests⟩

/-- So can all that follows. -/
theorem following_injective {messages messages' : List TrainingMessage}
    (hturns : ∀ message ∈ messages, IsTurn message.role) (hturns' : ∀ message ∈ messages', IsTurn message.role)
    (hfree : MarkerFree messages) (hfree' : MarkerFree messages') (h : following messages = following messages') :
    messages = messages' := by
  induction messages generalizing messages' with
  | nil =>
    cases messages' with
    | nil => rfl
    | cons message' messages' => cases h
  | cons message messages ih =>
    cases messages' with
    | nil => cases h
    | cons message' messages' =>
      obtain ⟨hturn, hlater⟩ := List.forall_mem_cons.mp hturns
      obtain ⟨hturn', hlater'⟩ := List.forall_mem_cons.mp hturns'
      obtain ⟨hcontent, hcontents⟩ := List.forall_mem_cons.mp hfree
      obtain ⟨hcontent', hcontents'⟩ := List.forall_mem_cons.mp hfree'
      obtain ⟨hsame, hrest⟩ := block_unique (List.cons.inj (List.cons.inj h).2).2 (Or.inr hturn) (Or.inr hturn')
        (following_cases hlater) (following_cases hlater') hcontent hcontent'
      rw [hsame, ih hlater hlater' hcontents hcontents' hrest]

/-! ## The grammar of conversations -/

theorem isTurn_of_alternates {expectedRole : String} {messages : List TrainingMessage} (hexpected : IsTurn expectedRole)
    (h : alternates expectedRole messages = true) : ∀ message ∈ messages, IsTurn message.role := by
  induction messages generalizing expectedRole with
  | nil => exact fun message hmessage => absurd hmessage List.not_mem_nil
  | cons message messages ih =>
    obtain ⟨hrole, hrest⟩ := Bool.and_eq_true_iff.mp h
    refine List.forall_mem_cons.mpr ⟨?_, ih ?_ hrest⟩
    · rw [of_decide_eq_true hrole]
      exact hexpected
    · split
      · exact Or.inr rfl
      · exact Or.inl rfl

/-- **An accepted conversation**: a first message, and turns behind it. -/
theorem exists_turns {messages : List TrainingMessage} {path : String}
    (h : validateConversationShape messages path = .ok ()) :
    ∃ message turns, messages = message :: turns ∧ IsRole message.role ∧ ∀ turn ∈ turns, IsTurn turn.role := by
  unfold validateConversationShape at h
  simp only at h
  generalize hdrop : messages.drop (if messages.head?.map TrainingMessage.role = some "system" then 1 else 0) = turns at h
  split at h
  · exact absurd h not_invalid
  · split at h
    · exact absurd h not_invalid
    · rename_i hlength
      split at h
      · exact absurd h not_invalid
      · rename_i halternates
        rw [Bool.not_eq_true', Bool.not_eq_false] at halternates
        have hturns := isTurn_of_alternates (Or.inl rfl) halternates
        cases messages with
        | nil =>
          obtain rfl := hdrop
          exact absurd (Nat.zero_lt_succ 1) hlength
        | cons message rest =>
          by_cases hsystem : message.role = "system"
          · rw [List.head?_cons, Option.map_some, hsystem, if_pos rfl] at hdrop
            obtain rfl := hdrop
            exact ⟨message, rest, rfl, Or.inl hsystem, hturns⟩
          · rw [List.head?_cons, Option.map_some, if_neg fun hsome => hsystem (Option.some.inj hsome)] at hdrop
            obtain rfl := hdrop
            obtain ⟨hmessage, hrest⟩ := List.forall_mem_cons.mp hturns
            exact ⟨message, rest, rfl, Or.inr hmessage, hrest⟩

/-- **Marker-free conversations can be read back.** -/
theorem messages_unique {py : Interpreter} {a b : TrainingExample} (ha : Checks py a) (hb : Checks py b)
    (hfree : MarkerFree a.messages) (hfree' : MarkerFree b.messages)
    (h : a.formatForCausalLm = b.formatForCausalLm) : a.messages = b.messages := by
  obtain ⟨path, hshape⟩ := ha.shape
  obtain ⟨path', hshape'⟩ := hb.shape
  obtain ⟨message, turns, hmessages, hrole, hturns⟩ := exists_turns hshape
  obtain ⟨message', turns', hmessages', hrole', hturns'⟩ := exists_turns hshape'
  have htext := congrArg String.toList h
  rw [toList_formatForCausalLm hmessages, toList_formatForCausalLm hmessages'] at htext
  rw [hmessages] at hfree
  rw [hmessages'] at hfree'
  obtain ⟨hcontent, hcontents⟩ := List.forall_mem_cons.mp hfree
  obtain ⟨hcontent', hcontents'⟩ := List.forall_mem_cons.mp hfree'
  obtain ⟨hsame, hrest⟩ := block_unique (List.append_cancel_right htext) hrole hrole' (following_cases hturns)
    (following_cases hturns') hcontent hcontent'
  rw [hmessages, hmessages', hsame, following_injective hturns hturns' hcontents hcontents' hrest]

/-! ## A marker inside a content -/

/-- The text behind two line ends is that of messages behind another one. -/
theorem following_eq_format {r : TrainingExample} (h : r.messages ≠ []) :
    '\n' :: '\n' :: r.formatForCausalLm.toList = following r.messages ++ "\n<|end|>".toList := by
  obtain ⟨message, messages, hmessages⟩ := List.exists_cons_of_ne_nil h
  rw [toList_formatForCausalLm hmessages, hmessages]
  rfl

/-- A question that has a marker for an answer inside. -/
def markedQuestion (before after : List TrainingMessage) (x y z : String) : List TrainingMessage :=
  before ++ ⟨"user", x ++ "\n\n<|assistant|>\n" ++ y⟩ :: ⟨"assistant", z⟩ :: after

/-- The same text cut at the marker inside: what is behind it goes to the answer. -/
def cutAtMarker (before after : List TrainingMessage) (x y z : String) : List TrainingMessage :=
  before ++ ⟨"user", x⟩ :: ⟨"assistant", y ++ "\n\n<|assistant|>\n" ++ z⟩ :: after

/-- **A marker inside a question can be read as the end of it**, in a conversation of the same roles. -/
theorem format_cutAtMarker (before after : List TrainingMessage) (x y z id : String)
    (metadata : List (String × Value)) :
    TrainingExample.formatForCausalLm ⟨id, markedQuestion before after x y z, metadata⟩ =
        TrainingExample.formatForCausalLm ⟨id, cutAtMarker before after x y z, metadata⟩ ∧
      (markedQuestion before after x y z).map TrainingMessage.role =
        (cutAtMarker before after x y z).map TrainingMessage.role ∧
      markedQuestion before after x y z ≠ cutAtMarker before after x y z := by
  refine ⟨?_, ?_, ?_⟩
  · have hsame : following (markedQuestion before after x y z) = following (cutAtMarker before after x y z) := by
      simp [following, block, opening, markedQuestion, cutAtMarker]
    have hmarked := following_eq_format (r := ⟨id, markedQuestion before after x y z, metadata⟩)
      (by simp [markedQuestion])
    have hcut := following_eq_format (r := ⟨id, cutAtMarker before after x y z, metadata⟩) (by simp [cutAtMarker])
    rw [hsame, ← hcut] at hmarked
    exact String.toList_injective (List.cons.inj (List.cons.inj hmarked).2).2
  · simp [markedQuestion, cutAtMarker]
  · intro heq
    have hquestion := (List.cons.inj (List.append_cancel_left heq)).1
    have hlength := congrArg String.length (TrainingMessage.mk.inj hquestion).2
    simp only [String.length_append] at hlength
    have hmarker : "\n\n<|assistant|>\n".length = 16 := by decide
    omega

/-! ## The claim on accepted records -/

/-- A record with these messages. -/
def recordOf (messages : List TrainingMessage) : Value :=
  .dict [("id", .str "sample"),
    ("messages", .list (messages.map fun message => sampleMessage message.role message.content))]

/-- Two turns, the first with two markers inside. -/
def twoTurns : List TrainingMessage :=
  [⟨"user", "a\n\n<|assistant|>\nb\n\n<|user|>\nc"⟩, ⟨"assistant", "d"⟩]

/-- Four turns with the same text. -/
def fourTurns : List TrainingMessage :=
  [⟨"user", "a"⟩, ⟨"assistant", "b"⟩, ⟨"user", "c"⟩, ⟨"assistant", "d"⟩]

theorem exists_parseRecord (messages : List TrainingMessage) (index : Nat)
    (h : (parseRecord asciiInterpreter (recordOf messages) index).toOption.any
      (fun r => decide (r.messages = messages)) = true) :
    ∃ r, parseRecord asciiInterpreter (recordOf messages) index = .ok r ∧ r.messages = messages := by
  obtain ⟨r, hparse, hmessages⟩ := PyList.exists_ok_of_any h
  exact ⟨r, hparse, of_decide_eq_true hmessages⟩

end FinancialRag.Training
