import Mathlib.Data.List.TakeWhile
import WhatsAppMcp.Bridge.Api.Send
import WhatsAppMcp.Controller.Pi.ToolEvents

/-!
# Journalled and sent destinations

`mutationDestination` of the controller beside the send handlers of the bridge, for the
tools that send a text or a media file.  A tool hands its argument to the bridge as it is;
`send_group_message` of the MCP server hands on only texts that end in `@g.us`.

* `mutationDestination_eq`: for these tools the journalled destination is the normalised
  argument, where it is an identity of at most 128 characters.
* `destinations_agree`: the journal and the handlers agree on every argument that a tool
  forwards.
* `destinations_differ_of_bareGroup`: on a number for `send_group_message`, which the MCP
  server refuses, they do not.
-/

namespace WhatsAppMcp.Controller.Pi

open Bridge.Api (JidType SendEnv SendRequest MediaForm normaliseJid sendMessage sendMedia
  sendMessage_targets sendMedia_targets sendMessage_valid sendMedia_valid)

/-! ## The tools -/

/-- The tools that send a text or a media file. -/
def Tool.sends : Tool → Bool
  | .sendMessage | .sendGroupMessage | .sendAutoMessage | .sendMedia => true
  | _ => false

/-- The MCP server makes a request to the bridge for this argument. -/
def Tool.forwards : Tool → String → Bool
  | .sendGroupMessage, value => "@g.us".toList.isSuffixOf value.toList
  | tool, _ => tool.sends

/-! ## The journalled destination -/

theorem chatJidSchema_iff (text : String) :
    chatJidSchema text = true ↔ Bridge.isChatJid text = true ∧ text.length ≤ 128 := by
  unfold chatJidSchema groupJidSchema privateJidSchema Bridge.isChatJid Bridge.isGroupJid
    Bridge.isPrivateJid Bridge.matchesJid
  simp only [Bool.or_eq_true, Bool.and_eq_true, decide_eq_true_eq, List.any_cons, List.any_nil,
    Bool.or_false]
  tauto

/-- An identity has its `@`. -/
theorem mem_of_chatJid {text : String} (h : Bridge.isChatJid text = true) : '@' ∈ text.toList := by
  unfold Bridge.isChatJid Bridge.matchesJid at h
  rw [Bool.and_eq_true, List.any_eq_true] at h
  obtain ⟨-, server, -, hrest⟩ := h
  have hrest : text.toList.dropWhile Char.isDigit = '@' :: server.toList := by simpa using hrest
  apply (List.dropWhile_suffix Char.isDigit).subset
  rw [hrest]
  exact List.mem_cons_self

/-- An identity is left alone. -/
theorem normaliseJid_of_chatJid {text : String} (h : Bridge.isChatJid text = true) :
    normaliseJid text = text := by
  unfold normaliseJid
  rw [if_pos (by simpa using mem_of_chatJid h)]

/-- What `mutationDestination` makes of an argument. -/
theorem actual_eq {normalizes : Bool} {value : String}
    (h : normalizes = true ∨ normaliseJid value = value) :
    (if normalizes && !value.toList.contains '@' && !(value.toList.filter Char.isDigit).isEmpty then
        String.ofList (value.toList.filter Char.isDigit) ++ "@s.whatsapp.net"
      else value) = normaliseJid value := by
  cases normalizes with
  | true =>
    unfold normaliseJid
    simp only [Bool.true_and]
    cases value.toList.contains '@' with
    | true => rfl
    | false =>
      generalize value.toList.filter Char.isDigit = digits
      cases digits <;> rfl
  | false =>
    cases h with
    | inl h => cases h
    | inr h => rw [h]; rfl

/-- The argument is normalised as the bridge does it, or it is an identity already. -/
theorem mutationDestination_eq {tool : Tool} {input : Fields} {value : String}
    (hinput : input.lookup tool.field = some (.string value))
    (hnormal : tool.normalizes = true ∨ normaliseJid value = value) :
    mutationDestination tool input =
      if chatJidSchema (normaliseJid value) then some (normaliseJid value) else none := by
  have hactual := actual_eq hnormal
  unfold mutationDestination
  simp only [hinput, Json.string?, Option.bind_eq_bind, Option.bind_some, hactual]

/-- A journalled destination is the normalised argument. -/
theorem normaliseJid_of_destination {tool : Tool} {input : Fields} {value d : String}
    (hinput : input.lookup tool.field = some (.string value))
    (h : mutationDestination tool input = some d) (htool : tool.sends = true) :
    normaliseJid value = d := by
  by_cases hnormal : tool.normalizes = true
  · rw [mutationDestination_eq hinput (Or.inl hnormal)] at h
    split at h
    · exact Option.some.inj h
    · cases h
  · obtain rfl : tool = .sendGroupMessage := by cases tool <;> simp_all [Tool.sends, Tool.normalizes]
    unfold mutationDestination at h
    simp only [hinput, Json.string?, Option.bind_eq_bind, Option.bind_some, Tool.normalizes,
      Bool.false_and, Bool.false_eq_true, if_false] at h
    split at h
    · next hschema =>
      rw [← Option.some.inj h]
      exact normaliseJid_of_chatJid ((chatJidSchema_iff value).mp hschema).1
    · cases h

/-- An argument that a tool forwards is normalised by the journal, or needs no normalising. -/
theorem normal_of_forwards {tool : Tool} {value : String} (h : tool.forwards value = true) :
    tool.normalizes = true ∨ normaliseJid value = value := by
  cases tool with
  | sendMessage | sendAutoMessage | sendMedia => exact Or.inl rfl
  | sendGroupMessage =>
    right
    have hsuffix : "@g.us".toList <:+ value.toList := List.isSuffixOf_iff_suffix.mp h
    have hat : '@' ∈ value.toList := hsuffix.subset (by decide)
    unfold normaliseJid
    rw [if_pos (by simpa using hat)]
  | sendReaction | editMessage | revokeMessage => cases h

/-! ## Agreement -/

variable {J : JidType} {Upload : Type}

/-- For every tool that sends, and every argument: where the journal has a destination, a
request with this argument is refused with nothing sent, or it goes to this destination; and
where a request that the tool makes goes to an identity of at most 128 characters, the
journal has this identity. -/
theorem destinations_agree (hJ : J.Faithful) :
    ∀ (tool : Tool) (input : Fields) (value : String), tool.sends = true →
      input.lookup tool.field = some (.string value) →
      (∀ d, mutationDestination tool input = some d → ∀ env : SendEnv J Upload,
        (∀ req : SendRequest, req.recipient = value → (sendMessage env (some req)).Targets d) ∧
        ∀ form : MediaForm, form.recipient = value → (sendMedia env (some form)).Targets d) ∧
      ∀ (env : SendEnv J Upload) jid msg, tool.forwards value = true → (J.text jid).length ≤ 128 →
        ((∃ req : SendRequest, req.recipient = value ∧
            (sendMessage env (some req)).sent = some (jid, msg)) ∨
          ∃ form : MediaForm, form.recipient = value ∧
            (sendMedia env (some form)).sent = some (jid, msg)) →
        mutationDestination tool input = some (J.text jid) := by
  intro tool input value htool hinput
  refine ⟨?_, ?_⟩
  · intro d hd env
    obtain rfl := normaliseJid_of_destination hinput hd htool
    refine ⟨?_, ?_⟩
    · rintro req rfl
      exact sendMessage_targets hJ env req
    · rintro form rfl
      exact sendMedia_targets hJ env form
  · intro env jid msg hforwards hlength hsent
    have hroute : Bridge.isChatJid (normaliseJid value) = true ∧ J.text jid = normaliseJid value := by
      rcases hsent with ⟨req, rfl, hsent⟩ | ⟨form, rfl, hsent⟩
      · refine ⟨sendMessage_valid (by rw [hsent]; exact Option.some_ne_none _), ?_⟩
        rcases sendMessage_targets hJ env req with ⟨-, hnone⟩ | ⟨jid', msg', hsome, htext⟩
        · rw [hnone] at hsent
          cases hsent
        · rw [hsent] at hsome
          cases hsome
          exact htext
      · refine ⟨sendMedia_valid (by rw [hsent]; exact Option.some_ne_none _), ?_⟩
        rcases sendMedia_targets hJ env form with ⟨-, hnone⟩ | ⟨jid', msg', hsome, htext⟩
        · rw [hnone] at hsent
          cases hsent
        · rw [hsent] at hsome
          cases hsome
          exact htext
    rw [hroute.2] at hlength ⊢
    rw [mutationDestination_eq hinput (normal_of_forwards hforwards),
      if_pos ((chatJidSchema_iff _).mpr ⟨hroute.1, hlength⟩)]

/-! ### A bare number -/

/-- Identities as pairs of a user and a server. -/
def pairJids : JidType where
  Jid := String × String
  parse s := some (String.ofList (s.toList.takeWhile (· ≠ '@')),
    String.ofList ((s.toList.dropWhile (· ≠ '@')).drop 1))
  text jid := jid.1 ++ "@" ++ jid.2
  isGroup jid := jid.2 = "g.us"
  isDefaultUser jid := jid.2 = "s.whatsapp.net"

theorem pairJids_faithful : pairJids.Faithful where
  text_parse := by
    intro s jid hs hjid
    obtain rfl := (Option.some.inj hjid).symm
    have hat : '@' ∈ s.toList := mem_of_chatJid hs
    have hhead : s.toList.dropWhile (· ≠ '@') = '@' :: (s.toList.dropWhile (· ≠ '@')).drop 1 := by
      cases hrest : s.toList.dropWhile (· ≠ '@') with
      | nil =>
        rw [List.dropWhile_eq_nil_iff] at hrest
        have hat' := hrest '@' hat
        simp at hat'
      | cons c rest =>
        have hc := List.head?_dropWhile_not (· ≠ '@') s.toList
        rw [hrest] at hc
        simp at hc
        rw [hc]
        rfl
    apply String.toList_inj.mp
    show (String.ofList _ ++ "@" ++ String.ofList _).toList = s.toList
    rw [String.toList_append, String.toList_append, String.toList_ofList, String.toList_ofList]
    conv_rhs => rw [← List.takeWhile_append_dropWhile (p := (· ≠ '@')) (l := s.toList), hhead]
    rw [List.append_assoc, String.toList_ofList]
    rfl

/-- A bridge that is connected, and a messenger that takes everything. -/
def sampleSendEnv : SendEnv pairJids Unit where
  connected := true
  groupExpiry := fun _ => 0
  available := true
  messageId := "3EB0"
  resolveOutbound := some
  registers := fun _ _ => true
  response := fun _ _ => some "3EB0"
  upload := fun _ => .ok ()

/-- A number with a plus sign and a blank goes where the journal says. -/
theorem destinations_agree_of_number :
    (sendMessage sampleSendEnv (some ⟨"+49 15", "hello", "", "", []⟩)).Targets
      "4915@s.whatsapp.net" :=
  ((destinations_agree pairJids_faithful .sendMessage [("to", .string "+49 15")] "+49 15" rfl rfl).1
    "4915@s.whatsapp.net" (by decide +kernel) sampleSendEnv).1 _ rfl

/-- The handlers make an identity of a bare number, whatever tool it is for; the journal does
not for `send_group_message`. -/
theorem destinations_differ_of_bareGroup :
    ¬ ∀ (J : JidType) (Upload : Type), J.Faithful →
      ∀ (tool : Tool) (input : Fields) (value : String), tool.sends = true →
        input.lookup tool.field = some (.string value) →
        (∀ d, mutationDestination tool input = some d → ∀ env : SendEnv J Upload,
          (∀ req : SendRequest, req.recipient = value → (sendMessage env (some req)).Targets d) ∧
          ∀ form : MediaForm, form.recipient = value → (sendMedia env (some form)).Targets d) ∧
        ∀ (env : SendEnv J Upload) jid msg, (J.text jid).length ≤ 128 →
          ((∃ req : SendRequest, req.recipient = value ∧
              (sendMessage env (some req)).sent = some (jid, msg)) ∨
            ∃ form : MediaForm, form.recipient = value ∧
              (sendMedia env (some form)).sent = some (jid, msg)) →
          mutationDestination tool input = some (J.text jid) := by
  intro hclaim
  have hconverse := (hclaim pairJids Unit pairJids_faithful .sendGroupMessage
    [("jid", .string "49151")] "49151" rfl rfl).2
  have hsent : (sendMessage sampleSendEnv (some ⟨"49151", "hello", "", "", []⟩)).sent =
      some (("49151", "s.whatsapp.net"), .conversation "hello") := by rfl
  have hjournal := hconverse sampleSendEnv _ _ (by decide) (.inl ⟨_, rfl, hsent⟩)
  have hrefused : mutationDestination .sendGroupMessage [("jid", .string "49151")] = none := by
    decide +kernel
  rw [hrefused] at hjournal
  cases hjournal

end WhatsAppMcp.Controller.Pi
