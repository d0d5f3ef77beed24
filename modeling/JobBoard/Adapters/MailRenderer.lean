import JobBoard.Assessments.Questions

/-!
# The pages of the mails

`mail-renderer.ts`: the content of a template and the page made of it. Texts are lists of
characters. `noninterfering_iff`: what a caller chooses never adds, moves or removes a `<`, a `>`
or a quote of the page, but for the ids every object inherits: their content has no heading, and
rendering it throws.
-/

set_option autoImplicit false

namespace JobBoard

namespace MailRenderer

/-! ## Texts -/

abbrev Text := List Char

/-- A value that may be `undefined`. -/
abbrev Value := Option Text

def lit (s : String) : Text := s.toList

/-- The lines of a template literal. -/
def lines (ls : List Text) : Text := ['\n'].intercalate ls

/-- What a template literal makes of a value. -/
def interpolated : Value → Text
  | some t => t
  | none => lit "undefined"

/-- Whether a condition takes a value for true. -/
def truthy : Value → Bool
  | some t => !t.isEmpty
  | none => false

/-! ## Escaping -/

def replaceAll (c : Char) (replacement : String) (text : Text) : Text :=
  text.flatMap fun d => if d = c then lit replacement else [d]

def QUOTE : Char := Char.ofNat 34

def escapeHtml (value : Text) : Text :=
  replaceAll QUOTE "&quot;"
    (replaceAll '>' "&gt;" (replaceAll '<' "&lt;" (replaceAll '&' "&amp;" value)))

inductive TypeError where
  /-- `undefined.replace`. -/
  | undefinedReplace
  deriving DecidableEq

/-- `escapeHtml` of a value. -/
def escaped : Value → Except TypeError Text
  | some value => .ok (escapeHtml value)
  | none => .error .undefinedReplace

/-- The reader's side of the four entities. -/
def decodeEntities : Text → Text
  | '&' :: 'a' :: 'm' :: 'p' :: ';' :: rest => '&' :: decodeEntities rest
  | '&' :: 'l' :: 't' :: ';' :: rest => '<' :: decodeEntities rest
  | '&' :: 'g' :: 't' :: ';' :: rest => '>' :: decodeEntities rest
  | '&' :: 'q' :: 'u' :: 'o' :: 't' :: ';' :: rest => QUOTE :: decodeEntities rest
  | c :: rest => c :: decodeEntities rest
  | [] => []

/-! ## `encodeURIComponent` -/

def isUnreserved (c : Char) : Bool :=
  c.isAlphanum || ['-', '_', '.', '!', '~', '*', Char.ofNat 39, '(', ')'].contains c

def hexDigit (n : Nat) : Char := Char.ofNat (if n < 10 then 48 + n else 55 + n)

def percentEncoded (byte : UInt8) : Text :=
  ['%', hexDigit (byte.toNat / 16), hexDigit (byte.toNat % 16)]

def encodeURIComponent (text : Text) : Text :=
  text.flatMap fun c =>
    if isUnreserved c then [c] else (String.utf8EncodeChar c).flatMap percentEncoded

/-! ## The templates -/

def APP_NAME : Text := lit "MaySync"

namespace BRAND

def primary : Text := lit "#29477e"
def primaryDark : Text := lit "#1f3a6b"
def ink : Text := lit "#161c2c"
def muted : Text := lit "#5b6478"
def faint : Text := lit "#8b93a7"
def bg : Text := lit "#eef1f6"
def card : Text := lit "#ffffff"
def border : Text := lit "#dfe3ec"
def hairline : Text := lit "#eaedf3"

end BRAND

structure EmailContent where
  heading : Value
  paragraphs : List Value
  ctaLabel : Value := none
  ctaUrl : Value := none
  note : Value := none
  showLinkFallback : Bool

structure TokenTemplate where
  path : Value
  heading : Value
  intro : Value
  cta : Value
  note : Value

structure NotificationTemplate where
  path : Value
  heading : Value
  intro : Value
  cta : Value

def TOKEN_TEMPLATES : List (String × TokenTemplate) := [
  ("email-verification",
    { path := lit "/verify-email"
      heading := lit "Confirmez votre adresse email"
      intro := lit "Bienvenue sur " ++ APP_NAME ++
        lit " ! Il ne reste qu’une étape : confirmez votre adresse email pour activer votre " ++
        lit "compte et accéder à la plateforme."
      cta := lit "Vérifier mon adresse"
      note := lit "Ce lien expire dans 24 heures. Si vous n’êtes pas à l’origine de cette " ++
        lit "inscription, vous pouvez ignorer cet email." }),
  ("password-reset",
    { path := lit "/reset-password"
      heading := lit "Réinitialisation de votre mot de passe"
      intro := lit "Vous avez demandé à réinitialiser votre mot de passe. Cliquez sur le bouton " ++
        lit "ci-dessous pour en choisir un nouveau."
      cta := lit "Choisir un nouveau mot de passe"
      note := lit "Ce lien est valable une heure. Si vous n’êtes pas à l’origine de cette " ++
        lit "demande, aucune action n’est requise : votre mot de passe reste inchangé." }),
  ("recruiter-invitation",
    { path := lit "/accept-invite"
      heading := lit "Vous êtes invité(e) à rejoindre une équipe"
      intro := lit "Une entreprise vous invite à la rejoindre comme recruteur sur " ++ APP_NAME ++
        lit ". Cliquez ci-dessous pour définir votre mot de passe et activer votre compte " ++
        lit "recruteur."
      cta := lit "Activer mon compte"
      note := lit "Ce lien expire dans 7 jours. Si vous n’attendiez pas cette invitation, vous " ++
        lit "pouvez ignorer cet email." })]

def NOTIFICATION_TEMPLATES : List (String × NotificationTemplate) := [
  ("cooldown-expired",
    { path := lit "/assessments"
      heading := lit "Vous pouvez repasser votre évaluation"
      intro := lit "Bonne nouvelle : le délai d’attente est écoulé. Vous pouvez retenter votre " ++
        lit "évaluation dès maintenant pour améliorer votre score et votre visibilité auprès " ++
        lit "des recruteurs."
      cta := lit "Repasser mon évaluation" }),
  ("profile-viewed",
    { path := lit "/dashboard"
      heading := lit "Un recruteur a consulté votre profil"
      intro := lit "Votre profil a retenu l’attention d’un recruteur. Gardez-le complet et à " ++
        lit "jour pour maximiser vos chances d’être contacté."
      cta := lit "Voir mon tableau de bord" })]

/-- The ids every object has a value for. -/
def inheritedIds : List Text := Assessments.Questions.OBJECT_PROTOTYPE.map lit

/-- `table[id]`: an inherited value has none of the fields of a template. -/
def property {α : Type} (table : List (String × α)) (inherited : α) (id : Text) : Option α :=
  match table.find? fun entry => lit entry.1 = id with
  | some entry => some entry.2
  | none => if id ∈ inheritedIds then some inherited else none

def tokenTemplate (templateId : Text) : Option TokenTemplate :=
  property TOKEN_TEMPLATES ⟨none, none, none, none, none⟩ templateId

def notificationTemplate (templateId : Text) : Option NotificationTemplate :=
  property NOTIFICATION_TEMPLATES ⟨none, none, none, none⟩ templateId

/-- The variables a template reads. -/
structure Variables where
  token : Value
  email : Value
  companyName : Value

section

variable (WEB_BASE_URL : Text)

/-- The content of an id without a template. -/
def genericContent (subject : Text) : EmailContent where
  heading := some (if subject.isEmpty then APP_NAME else subject)
  paragraphs := [lit "Vous avez une nouvelle notification sur votre compte " ++ APP_NAME ++ lit "."]
  ctaLabel := lit "Ouvrir " ++ APP_NAME
  ctaUrl := WEB_BASE_URL ++ lit "/dashboard"
  showLinkFallback := false

def inviteIntro : Value → Text
  | some (c :: companyName) =>
    lit "Un compte recruteur a été créé pour vous au sein de « " ++ c :: companyName ++
      lit " ». Activez-le en définissant votre mot de passe, puis connectez-vous."
  | _ =>
    lit "Un compte recruteur a été créé pour vous. Activez-le en définissant votre mot de " ++
    lit "passe, puis connectez-vous."

def inviteContent (token : Text) (vars : Variables) (recipient : Text) : EmailContent where
  heading := lit "Votre compte recruteur " ++ APP_NAME
  paragraphs := [
    inviteIntro vars.companyName,
    lit "Votre identifiant de connexion : " ++ vars.email.getD recipient]
  ctaLabel := lit "Définir mon mot de passe"
  ctaUrl := WEB_BASE_URL ++ lit "/reset-password?token=" ++ encodeURIComponent token
  note := lit "Ce lien d’activation expire dans 7 jours. Connectez-vous ensuite avec l’adresse " ++
    lit "indiquée ci-dessus."
  showLinkFallback := true

def tokenContent (template : TokenTemplate) (token : Text) : EmailContent where
  heading := template.heading
  paragraphs := [template.intro]
  ctaLabel := template.cta
  ctaUrl := WEB_BASE_URL ++ interpolated template.path ++ lit "?token=" ++ encodeURIComponent token
  note := template.note
  showLinkFallback := true

def notificationContent (template : NotificationTemplate) : EmailContent where
  heading := template.heading
  paragraphs := [template.intro]
  ctaLabel := template.cta
  ctaUrl := WEB_BASE_URL ++ interpolated template.path
  showLinkFallback := false

def resolveContent (templateId subject : Text) (vars : Variables) (recipient : Text) :
    EmailContent :=
  -- an empty token counts as none
  match vars.token.filter fun t => !t.isEmpty with
  | some token =>
    if templateId = lit "recruiter-invite" then inviteContent WEB_BASE_URL token vars recipient
    else match tokenTemplate templateId with
    | some template => tokenContent WEB_BASE_URL template token
    | none => withoutToken
  | none => withoutToken
where
  withoutToken : EmailContent :=
    match notificationTemplate templateId with
    | some template => notificationContent WEB_BASE_URL template
    | none => genericContent WEB_BASE_URL subject

end

/-! ## The page -/

inductive Dir where
  | ltr
  | rtl
  deriving DecidableEq

namespace Dir

def text : Dir → Text
  | ltr => lit "ltr"
  | rtl => lit "rtl"

def align : Dir → Text
  | ltr => lit "left"
  | rtl => lit "right"

def margin : Dir → Text
  | ltr => lit "right"
  | rtl => lit "left"

end Dir

def paragraph (text : Text) : Text :=
  lines [
    lit "<p style=\"margin:0 0 16px;color:" ++ BRAND.muted ++
    lit ";font-size:15px;line-height:1.6\">" ++ text ++ lit "</p>"]

def button (url label : Text) : Text :=
  lines [
    lit "<table role=\"presentation\" cellpadding=\"0\" cellspacing=\"0\" style=\"margin:8px 0 " ++
    lit "4px\">",
    lit "            <tr>",
    lit "              <td align=\"center\" bgcolor=\"" ++ BRAND.primary ++
    lit "\" style=\"border-radius:8px\">",
    lit "                <!--[if mso]>",
    lit "                <v:roundrect xmlns:v=\"urn:schemas-microsoft-com:vml\" " ++
    lit "xmlns:w=\"urn:schemas-microsoft-com:office:word\" href=\"" ++ url ++
    lit "\" style=\"height:44px;v-text-anchor:middle;width:280px;\" arcsize=\"18%\" " ++
    lit "strokecolor=\"" ++ BRAND.primary ++ lit "\" fillcolor=\"" ++ BRAND.primary ++ lit "\">",
    lit "                <w:anchorlock/><center style=\"color:#ffffff;" ++
    lit "font-family:Arial,sans-serif;font-size:15px;font-weight:bold;\">" ++ label ++
    lit "</center>",
    lit "                </v:roundrect>",
    lit "                <![endif]-->",
    lit "                <!--[if !mso]><!-->",
    lit "                <a href=\"" ++ url ++
    lit "\" style=\"display:inline-block;padding:13px 28px;font-size:15px;font-weight:600;" ++
    lit "color:#ffffff;text-decoration:none;border-radius:8px;background:" ++ BRAND.primary ++
    lit "\">" ++ label ++ lit "</a>",
    lit "                <!--<![endif]-->",
    lit "              </td>",
    lit "            </tr>",
    lit "          </table>"]

def noteLine (text : Text) : Text :=
  lines [
    lit "<p style=\"margin:20px 0 0;color:" ++ BRAND.faint ++
    lit ";font-size:13px;line-height:1.55\">" ++ text ++ lit "</p>"]

def linkFallbackLines (url : Text) : Text :=
  lines [
    lit "<p style=\"margin:20px 0 0;color:" ++ BRAND.faint ++
    lit ";font-size:12px;line-height:1.5\">Si le bouton ne fonctionne pas, copiez ce lien dans " ++
    lit "votre navigateur :<br>",
    lit "          <a href=\"" ++ url ++ lit "\" style=\"color:" ++ BRAND.primary ++
    lit ";word-break:break-all\">" ++ escapeHtml url ++ lit "</a></p>"]

/-- What stands in the page: the texts escaped, the parts as they are. -/
structure Holes where
  subject : Text
  preheader : Text
  heading : Text
  paragraphs : Text
  button : Text
  note : Text
  linkFallback : Text
  year : Text

def page (dir : Dir) (holes : Holes) : Text :=
  lines [
    lit "<!doctype html>",
    lit "<html lang=\"fr\" dir=\"" ++ dir.text ++
    lit "\" xmlns:v=\"urn:schemas-microsoft-com:vml\" " ++
    lit "xmlns:o=\"urn:schemas-microsoft-com:office:office\">",
    lit "<head>",
    lit "  <meta charset=\"utf-8\">",
    lit "  <meta name=\"viewport\" content=\"width=device-width, initial-scale=1\">",
    lit "  <meta name=\"x-apple-disable-message-reformatting\">",
    lit "  <title>" ++ holes.subject ++ lit "</title>",
    lit "  <!--[if mso]><xml><o:OfficeDocumentSettings><o:PixelsPerInch>96</o:PixelsPerInch>" ++
    lit "</o:OfficeDocumentSettings></xml><![endif]-->",
    lit "</head>",
    lit "<body style=\"margin:0;padding:0;background:" ++ BRAND.bg ++
    lit ";-webkit-font-smoothing:antialiased\">",
    lit "  <div style=\"display:none;max-height:0;overflow:hidden;opacity:0\">" ++
    holes.preheader ++ lit "</div>",
    lit "  <table role=\"presentation\" width=\"100%\" cellpadding=\"0\" cellspacing=\"0\" " ++
    lit "style=\"background:" ++ BRAND.bg ++ lit "\">",
    lit "    <tr>",
    lit "      <td align=\"center\" style=\"padding:32px 16px\">",
    lit "        <table role=\"presentation\" width=\"100%\" cellpadding=\"0\" " ++
    lit "cellspacing=\"0\" style=\"max-width:520px;width:100%;background:" ++ BRAND.card ++
    lit ";border:1px solid " ++ BRAND.border ++ lit ";border-radius:14px;overflow:hidden;" ++
    lit "font-family:-apple-system,BlinkMacSystemFont,'Segoe " ++
    lit "UI',Roboto,Helvetica,Arial,sans-serif\">",
    lit "          <tr>",
    lit "            <td style=\"height:4px;background:" ++ BRAND.primary ++
    lit ";background:linear-gradient(90deg," ++ BRAND.primary ++ lit "," ++ BRAND.primaryDark ++
    lit ")\">&nbsp;</td>",
    lit "          </tr>",
    lit "          <tr>",
    lit "            <td style=\"padding:28px 32px 8px\" align=\"" ++ dir.align ++ lit "\">",
    lit "              <span style=\"display:inline-block;font-size:18px;font-weight:700;color:" ++
    BRAND.ink ++ lit ";letter-spacing:-0.2px\">",
    lit "                <span style=\"display:inline-block;width:22px;height:22px;" ++
    lit "line-height:22px;text-align:center;border-radius:6px;background:" ++ BRAND.primary ++
    lit ";color:#fff;font-size:13px;vertical-align:middle;margin-" ++ dir.margin ++ lit ":8px\">" ++
    APP_NAME.take 1 ++ lit "</span>" ++ APP_NAME,
    lit "              </span>",
    lit "            </td>",
    lit "          </tr>",
    lit "          <tr>",
    lit "            <td style=\"padding:8px 32px 32px\" align=\"" ++ dir.align ++ lit "\">",
    lit "              <h1 style=\"margin:0 0 14px;color:" ++ BRAND.ink ++
    lit ";font-size:21px;line-height:1.35;font-weight:700\">" ++ holes.heading ++ lit "</h1>",
    lit "              " ++ holes.paragraphs,
    lit "              " ++ holes.button,
    lit "              " ++ holes.note,
    lit "              " ++ holes.linkFallback,
    lit "            </td>",
    lit "          </tr>",
    lit "          <tr>",
    lit "            <td style=\"padding:20px 32px;border-top:1px solid " ++ BRAND.hairline ++
    lit "\" align=\"" ++ dir.align ++ lit "\">",
    lit "              <p style=\"margin:0;color:" ++ BRAND.faint ++
    lit ";font-size:12px;line-height:1.55\">Cet email vous a été envoyé automatiquement par " ++
    APP_NAME ++ lit ". Merci de ne pas y répondre.</p>",
    lit "              <p style=\"margin:6px 0 0;color:" ++ BRAND.faint ++
    lit ";font-size:12px\">© " ++ holes.year ++ lit " " ++ APP_NAME ++ lit "</p>",
    lit "            </td>",
    lit "          </tr>",
    lit "        </table>",
    lit "      </td>",
    lit "    </tr>",
    lit "  </table>",
    lit "</body>",
    lit "</html>"]

def renderHtml (year : Nat) (content : EmailContent) (subject : Text) (dir : Dir) :
    Except TypeError Text := do
  let preheader := (content.paragraphs.head?.join).getD subject
  let paragraphs ← content.paragraphs.mapM fun p => do return paragraph (← escaped p)
  let label := escapeHtml (content.ctaLabel.getD [])
  let url := interpolated content.ctaUrl
  let heading ← escaped content.heading
  return page dir
    { subject := escapeHtml subject
      preheader := escapeHtml preheader
      heading := heading
      paragraphs := paragraphs.flatten
      button := if truthy content.ctaUrl then button url label else []
      note := if truthy content.note then noteLine (escapeHtml (interpolated content.note)) else []
      linkFallback :=
        if content.showLinkFallback && truthy content.ctaUrl then linkFallbackLines url else []
      year := lit (toString year) }

/-! ## Markup -/

/-- The characters that open, close and delimit. -/
def isMarkup (c : Char) : Bool := c == '<' || c == '>' || c == QUOTE

def markup (text : Text) : Text := text.filter isMarkup

@[simp] theorem markup_nil : markup [] = [] := rfl

@[simp] theorem markup_append (t t' : Text) : markup (t ++ t') = markup t ++ markup t' :=
  List.filter_append ..

theorem markup_lines (ls : List Text) : markup (lines ls) = ls.flatMap markup := by
  have hnewline : markup ['\n'] = [] := by decide
  unfold lines
  induction ls with
  | nil => rfl
  | cons l ls ih =>
    cases ls with
    | nil => simp
    | cons l' ls =>
      rw [List.intercalate_cons_of_ne_nil (List.cons_ne_nil _ _), markup_append, markup_append, ih,
        hnewline, List.append_nil]
      rfl

theorem markup_flatMap {α : Type} (f : α → Text) (xs : List α) :
    markup (xs.flatMap f) = xs.flatMap fun x => markup (f x) :=
  List.filter_flatMap ..

/-! ## Escaping -/

def escapeChar (c : Char) : Text :=
  if c = '&' then lit "&amp;" else if c = '<' then lit "&lt;" else if c = '>' then lit "&gt;"
  else if c = QUOTE then lit "&quot;" else [c]

/-- The later replacements leave the entities of the earlier ones alone: `&` goes first. -/
theorem escapeHtml_eq (value : Text) : escapeHtml value = value.flatMap escapeChar := by
  simp only [escapeHtml, replaceAll, List.flatMap_assoc]
  refine List.flatMap_congr fun c _ => ?_
  unfold escapeChar
  by_cases hamp : c = '&'
  · subst hamp
    decide
  by_cases hlt : c = '<'
  · subst hlt
    decide
  by_cases hgt : c = '>'
  · subst hgt
    decide
  by_cases hquote : c = QUOTE
  · subst hquote
    decide
  simp [hamp, hlt, hgt, hquote]

theorem markup_escapeChar (c : Char) : markup (escapeChar c) = [] := by
  unfold escapeChar
  split
  · decide
  split
  · decide
  split
  · decide
  split
  · decide
  simp [markup, isMarkup, *]

theorem markup_escapeHtml (value : Text) : markup (escapeHtml value) = [] := by
  rw [escapeHtml_eq, markup_flatMap, List.flatMap_eq_nil_iff]
  exact fun c _ => markup_escapeChar c

theorem decodeEntities_escapeChar (c : Char) (rest : Text) :
    decodeEntities (escapeChar c ++ rest) = c :: decodeEntities rest := by
  unfold escapeChar
  by_cases hamp : c = '&'
  · subst hamp
    rfl
  by_cases hlt : c = '<'
  · subst hlt
    rfl
  by_cases hgt : c = '>'
  · subst hgt
    rfl
  by_cases hquote : c = QUOTE
  · subst hquote
    rfl
  simp only [hamp, hlt, hgt, hquote, if_false, List.cons_append, List.nil_append]
  rw [decodeEntities] <;> simp [hamp]

theorem decodeEntities_escapeHtml (value : Text) : decodeEntities (escapeHtml value) = value := by
  rw [escapeHtml_eq]
  induction value with
  | nil => rfl
  | cons c value ih => rw [List.flatMap_cons, decodeEntities_escapeChar, ih]

theorem hexDigit_plain (n : Nat) (h : n < 16) : isMarkup (hexDigit n) = false := by
  have hall : ∀ n : Fin 16, isMarkup (hexDigit n) = false := by decide
  exact hall ⟨n, h⟩

theorem markup_percentEncoded (byte : UInt8) : markup (percentEncoded byte) = [] := by
  have hbyte : byte.toNat < 256 := byte.toNat_lt
  have hhigh := hexDigit_plain (byte.toNat / 16) (by omega)
  have hlow := hexDigit_plain (byte.toNat % 16) (by omega)
  have hpercent : isMarkup '%' = false := by decide
  simp [percentEncoded, markup, hhigh, hlow, hpercent]

theorem unreserved_plain {c : Char} (h : isUnreserved c = true) : isMarkup c = false := by
  by_contra hmarkup
  have hcases : c = '<' ∨ c = '>' ∨ c = QUOTE := by
    rw [Bool.not_eq_false] at hmarkup
    simpa only [isMarkup, Bool.or_eq_true, beq_iff_eq, or_assoc] using hmarkup
  rcases hcases with rfl | rfl | rfl
  · exact absurd h (by decide)
  · exact absurd h (by decide)
  · exact absurd h (by decide)

theorem markup_encodeURIComponent (text : Text) : markup (encodeURIComponent text) = [] := by
  rw [encodeURIComponent, markup_flatMap, List.flatMap_eq_nil_iff]
  intro c _
  split
  next h => simp [markup, unreserved_plain h]
  next =>
    rw [markup_flatMap, List.flatMap_eq_nil_iff]
    exact fun byte _ => markup_percentEncoded byte

/-! ## The markup of a page -/

theorem paragraph_same {t t' : Text} (h : markup t = markup t') :
    markup (paragraph t) = markup (paragraph t') := by
  simp only [paragraph, markup_lines, List.flatMap_cons, List.flatMap_nil, markup_append, h]

theorem button_same {url url' label label' : Text} (hurl : markup url = markup url')
    (hlabel : markup label = markup label') :
    markup (button url label) = markup (button url' label') := by
  simp only [button, markup_lines, List.flatMap_cons, List.flatMap_nil, markup_append, hurl, hlabel]

theorem noteLine_same {t t' : Text} (h : markup t = markup t') :
    markup (noteLine t) = markup (noteLine t') := by
  simp only [noteLine, markup_lines, List.flatMap_cons, List.flatMap_nil, markup_append, h]

theorem linkFallback_same {url url' : Text} (h : markup url = markup url') :
    markup (linkFallbackLines url) = markup (linkFallbackLines url') := by
  simp only [linkFallbackLines, markup_lines, List.flatMap_cons, List.flatMap_nil, markup_append, h,
    markup_escapeHtml]

/-- Both have the same markup in every hole. -/
structure Holes.Same (holes holes' : Holes) : Prop where
  subject : markup holes.subject = markup holes'.subject
  preheader : markup holes.preheader = markup holes'.preheader
  heading : markup holes.heading = markup holes'.heading
  paragraphs : markup holes.paragraphs = markup holes'.paragraphs
  button : markup holes.button = markup holes'.button
  note : markup holes.note = markup holes'.note
  linkFallback : markup holes.linkFallback = markup holes'.linkFallback
  year : markup holes.year = markup holes'.year

theorem page_same (dir : Dir) {holes holes' : Holes} (h : holes.Same holes') :
    markup (page dir holes) = markup (page dir holes') := by
  simp only [page, markup_lines, List.flatMap_cons, List.flatMap_nil, markup_append, h.subject,
    h.preheader, h.heading, h.paragraphs, h.button, h.note, h.linkFallback, h.year]

theorem markup_year (year : Nat) : markup (lit (toString year)) = [] := by
  refine List.filter_eq_nil_iff.mpr fun c hc => ?_
  rw [show lit (toString year) = Nat.toDigits 10 year from Nat.toList_repr] at hc
  have hdigit : c.isDigit = true := Nat.isDigit_of_mem_toDigits (by decide) (by decide) hc
  have hunreserved : isUnreserved c = true := by simp [isUnreserved, Char.isAlphanum, hdigit]
  simp [unreserved_plain hunreserved]

/-- The content can be rendered: its texts are there. -/
structure EmailContent.Defined (content : EmailContent) : Prop where
  heading : content.heading.isSome = true
  paragraphs : ∀ p ∈ content.paragraphs, p.isSome = true

/-- Both contents have the same parts, with the same markup in the link. -/
structure EmailContent.SameShape (a b : EmailContent) : Prop where
  paragraphs : a.paragraphs.length = b.paragraphs.length
  present : truthy a.ctaUrl = truthy b.ctaUrl
  url : markup (interpolated a.ctaUrl) = markup (interpolated b.ctaUrl)
  note : truthy a.note = truthy b.note
  showLinkFallback : a.showLinkFallback = b.showLinkFallback

theorem escaped_of_isSome {value : Value} (h : value.isSome = true) :
    escaped value = .ok (escapeHtml (interpolated value)) := by
  obtain ⟨t, rfl⟩ := Option.isSome_iff_exists.mp h
  rfl

theorem paragraphs_ok {ps : List Value} (h : ∀ p ∈ ps, p.isSome = true) :
    (ps.mapM fun p => do return paragraph (← escaped p) : Except TypeError (List Text)) =
      .ok (ps.map fun p => paragraph (escapeHtml (interpolated p))) := by
  induction ps with
  | nil => rfl
  | cons p ps ih =>
    rw [List.mapM_cons, escaped_of_isSome (h p List.mem_cons_self),
      ih fun q hq => h q (List.mem_cons_of_mem p hq)]
    rfl

/-- The markup of the paragraphs is that of as many empty ones. -/
theorem markup_paragraphs (ps : List Value) :
    markup (ps.map fun p => paragraph (escapeHtml (interpolated p))).flatten =
      (List.replicate ps.length (markup (paragraph []))).flatten := by
  induction ps with
  | nil => rfl
  | cons p ps ih =>
    have hempty : markup (escapeHtml (interpolated p)) = markup [] := markup_escapeHtml _
    rw [List.map_cons, List.flatten_cons, markup_append, ih, List.length_cons, List.replicate_succ,
      List.flatten_cons, paragraph_same hempty]

/-- The holes of a content that can be rendered. -/
theorem renderHtml_defined {content : EmailContent} (h : content.Defined) (year : Nat)
    (subject : Text) (dir : Dir) :
    renderHtml year content subject dir = .ok (page dir
      { subject := escapeHtml subject
        preheader := escapeHtml ((content.paragraphs.head?.join).getD subject)
        heading := escapeHtml (interpolated content.heading)
        paragraphs :=
          (content.paragraphs.map fun p => paragraph (escapeHtml (interpolated p))).flatten
        button :=
          if truthy content.ctaUrl then
            button (interpolated content.ctaUrl) (escapeHtml (content.ctaLabel.getD []))
          else []
        note :=
          if truthy content.note then noteLine (escapeHtml (interpolated content.note)) else []
        linkFallback :=
          if content.showLinkFallback && truthy content.ctaUrl then
            linkFallbackLines (interpolated content.ctaUrl)
          else []
        year := lit (toString year) }) := by
  unfold renderHtml
  rw [paragraphs_ok h.paragraphs, escaped_of_isSome h.heading]
  rfl

theorem renderHtml_same {a b : EmailContent} (ha : a.Defined) (hb : b.Defined)
    (h : a.SameShape b) (year year' : Nat) (subject subject' : Text) (dir : Dir) :
    ∃ html html', renderHtml year a subject dir = .ok html ∧
      renderHtml year' b subject' dir = .ok html' ∧ markup html = markup html' := by
  refine ⟨_, _, renderHtml_defined ha year subject dir, renderHtml_defined hb year' subject' dir,
    page_same dir ⟨?_, ?_, ?_, ?_, ?_, ?_, ?_, ?_⟩⟩
  · rw [markup_escapeHtml, markup_escapeHtml]
  · rw [markup_escapeHtml, markup_escapeHtml]
  · rw [markup_escapeHtml, markup_escapeHtml]
  · rw [markup_paragraphs, markup_paragraphs, h.paragraphs]
  · simp only [h.present]
    split
    next => exact button_same h.url (by rw [markup_escapeHtml, markup_escapeHtml])
    next => rfl
  · simp only [h.note]
    split
    next => exact noteLine_same (by rw [markup_escapeHtml, markup_escapeHtml])
    next => rfl
  · simp only [h.present, h.showLinkFallback]
    split
    next => exact linkFallback_same h.url
    next => rfl
  · rw [markup_year, markup_year]

/-! ## What the caller chooses -/

section

variable {WEB_BASE_URL : Text}

/-- The token a template gets. -/
def Variables.givenToken (vars : Variables) : Value := vars.token.filter fun t => !t.isEmpty

/-- The choices are of the same kind. -/
structure Variables.Agree (vars vars' : Variables) : Prop where
  token : truthy vars.token = truthy vars'.token
  email : truthy vars.email = truthy vars'.email
  companyName : truthy vars.companyName = truthy vars'.companyName

theorem givenToken_cases (vars : Variables) :
    (vars.givenToken = none ∧ truthy vars.token = false) ∨
      ∃ token, vars.givenToken = some token ∧ truthy vars.token = true := by
  unfold Variables.givenToken
  cases vars.token with
  | none => exact .inl ⟨rfl, rfl⟩
  | some t =>
    cases t with
    | nil => exact .inl ⟨rfl, rfl⟩
    | cons c t => exact .inr ⟨c :: t, rfl, rfl⟩

/-- Tokens are given in both or in neither. -/
theorem Variables.Agree.givenToken {vars vars' : Variables} (h : vars.Agree vars') :
    (vars.givenToken = none ∧ vars'.givenToken = none) ∨
      ∃ token token', vars.givenToken = some token ∧ vars'.givenToken = some token' := by
  rcases givenToken_cases vars with ⟨ha, ha'⟩ | ⟨token, ha, ha'⟩ <;>
    rcases givenToken_cases vars' with ⟨hb, hb'⟩ | ⟨token', hb, hb'⟩
  · exact .inl ⟨ha, hb⟩
  · simp [h.token, hb'] at ha'
  · simp [h.token, hb'] at ha'
  · exact .inr ⟨token, token', ha, hb⟩

theorem truthy_link (before after : Text) {path : Text} (h : path ≠ []) :
    truthy (some (before ++ path ++ after)) = true := by
  simp [truthy, h]

theorem inviteContent_shape (token token' : Text) (vars vars' : Variables)
    (recipient recipient' : Text) :
    (inviteContent WEB_BASE_URL token vars recipient).SameShape
      (inviteContent WEB_BASE_URL token' vars' recipient') where
  paragraphs := rfl
  present := by
    have hpath : lit "/reset-password?token=" ≠ [] := by decide
    exact (truthy_link _ _ hpath).trans (truthy_link _ _ hpath).symm
  url := by
    simp only [inviteContent, interpolated, markup_append, markup_encodeURIComponent]
  note := rfl
  showLinkFallback := rfl

theorem tokenContent_shape (template : TokenTemplate) (token token' : Text) :
    (tokenContent WEB_BASE_URL template token).SameShape
      (tokenContent WEB_BASE_URL template token') where
  paragraphs := rfl
  present := by
    have hquery : lit "?token=" ≠ [] := by decide
    exact (truthy_link _ _ hquery).trans (truthy_link _ _ hquery).symm
  url := by
    simp only [tokenContent, interpolated, markup_append, markup_encodeURIComponent]
  note := rfl
  showLinkFallback := rfl

theorem withoutToken_shape (templateId subject subject' : Text) :
    (resolveContent.withoutToken WEB_BASE_URL templateId subject).SameShape
      (resolveContent.withoutToken WEB_BASE_URL templateId subject') := by
  unfold resolveContent.withoutToken
  cases notificationTemplate templateId with
  | some template => exact ⟨rfl, rfl, rfl, rfl, rfl⟩
  | none => exact ⟨rfl, rfl, rfl, rfl, rfl⟩

theorem resolveContent_without {vars : Variables} (h : vars.givenToken = none)
    (templateId subject recipient : Text) :
    resolveContent WEB_BASE_URL templateId subject vars recipient =
      resolveContent.withoutToken WEB_BASE_URL templateId subject := by
  unfold resolveContent
  rw [show (vars.token.filter fun t => !t.isEmpty) = none from h]

theorem resolveContent_with {vars : Variables} {token : Text} (h : vars.givenToken = some token)
    (templateId subject recipient : Text) :
    resolveContent WEB_BASE_URL templateId subject vars recipient =
      if templateId = lit "recruiter-invite" then inviteContent WEB_BASE_URL token vars recipient
      else match tokenTemplate templateId with
      | some template => tokenContent WEB_BASE_URL template token
      | none => resolveContent.withoutToken WEB_BASE_URL templateId subject := by
  unfold resolveContent
  rw [show (vars.token.filter fun t => !t.isEmpty) = some token from h]

theorem resolveContent_shape (templateId subject subject' recipient recipient' : Text)
    {vars vars' : Variables} (h : vars.Agree vars') :
    (resolveContent WEB_BASE_URL templateId subject vars recipient).SameShape
      (resolveContent WEB_BASE_URL templateId subject' vars' recipient') := by
  rcases h.givenToken with ⟨ha, hb⟩ | ⟨token, token', ha, hb⟩
  · rw [resolveContent_without ha, resolveContent_without hb]
    exact withoutToken_shape templateId subject subject'
  · rw [resolveContent_with ha, resolveContent_with hb]
    split
    next => exact inviteContent_shape token token' vars vars' recipient recipient'
    next =>
      cases tokenTemplate templateId with
      | some template => exact tokenContent_shape template token token'
      | none => exact withoutToken_shape templateId subject subject'

/-! ## Templates of the tables -/

theorem property_own {α : Type} {table : List (String × α)} {inherited template : α} {id : Text}
    (hid : id ∉ inheritedIds) (h : property table inherited id = some template) :
    ∃ key, (key, template) ∈ table := by
  unfold property at h
  split at h
  next entry hfind =>
    obtain rfl : entry.2 = template := Option.some.inj h
    exact ⟨entry.1, List.mem_of_find?_eq_some hfind⟩
  next => simp [hid] at h

theorem withoutToken_defined {templateId : Text} (hid : templateId ∉ inheritedIds)
    (subject : Text) :
    (resolveContent.withoutToken WEB_BASE_URL templateId subject).Defined := by
  have hall : ∀ entry ∈ NOTIFICATION_TEMPLATES,
      entry.2.heading.isSome = true ∧ entry.2.intro.isSome = true := by
    simp [NOTIFICATION_TEMPLATES]
  unfold resolveContent.withoutToken
  cases htemplate : notificationTemplate templateId with
  | none => exact { heading := rfl, paragraphs := by simp [genericContent] }
  | some template =>
    obtain ⟨key, hkey⟩ := property_own hid htemplate
    obtain ⟨hheading, hintro⟩ := hall _ hkey
    exact { heading := hheading, paragraphs := by simpa [notificationContent] using hintro }

theorem resolveContent_defined {templateId : Text} (hid : templateId ∉ inheritedIds)
    (subject : Text) (vars : Variables) (recipient : Text) :
    (resolveContent WEB_BASE_URL templateId subject vars recipient).Defined := by
  have hall : ∀ entry ∈ TOKEN_TEMPLATES,
      entry.2.heading.isSome = true ∧ entry.2.intro.isSome = true := by
    simp [TOKEN_TEMPLATES]
  rcases givenToken_cases vars with ⟨hnone, -⟩ | ⟨token, hsome, -⟩
  · rw [resolveContent_without hnone]
    exact withoutToken_defined hid subject
  rw [resolveContent_with hsome]
  split
  next => exact ⟨rfl, by simp [inviteContent]⟩
  next =>
    cases htemplate : tokenTemplate templateId with
    | none => exact withoutToken_defined hid subject
    | some template =>
      obtain ⟨key, hkey⟩ := property_own hid htemplate
      obtain ⟨hheading, hintro⟩ := hall _ hkey
      exact ⟨hheading, by simpa [tokenContent] using hintro⟩

end

/-! ## Noninterference -/

/-- The ids with a content of their own. -/
def ownIds : List Text :=
  lit "recruiter-invite" ::
    (TOKEN_TEMPLATES.map fun entry => lit entry.1) ++
      NOTIFICATION_TEMPLATES.map fun entry => lit entry.1

/-- Two choices of the same kind, rendered at any two times, give pages of one markup. -/
def Noninterfering (templateId : Text) : Prop :=
  ∀ (WEB_BASE_URL : Text) (dir : Dir) (year year' : Nat)
    (subject subject' recipient recipient' : Text) (vars vars' : Variables),
    subject.isEmpty = subject'.isEmpty → vars.Agree vars' →
    ∃ html html',
      renderHtml year (resolveContent WEB_BASE_URL templateId subject vars recipient) subject dir =
        .ok html ∧
      renderHtml year' (resolveContent WEB_BASE_URL templateId subject' vars' recipient') subject'
        dir = .ok html' ∧
      markup html = markup html'

/-- An id without a content of its own has the generic one. -/
def FallsBack (templateId : Text) : Prop :=
  templateId ∉ ownIds →
    ∀ (WEB_BASE_URL subject recipient : Text) (vars : Variables),
      resolveContent WEB_BASE_URL templateId subject vars recipient =
        genericContent WEB_BASE_URL subject

theorem noninterfering_of_not_inherited {templateId : Text} (hid : templateId ∉ inheritedIds) :
    Noninterfering templateId := by
  intro WEB_BASE_URL dir year year' subject subject' recipient recipient' vars vars' _ hvars
  exact renderHtml_same (resolveContent_defined hid subject vars recipient)
    (resolveContent_defined hid subject' vars' recipient')
    (resolveContent_shape templateId subject subject' recipient recipient' hvars)
    year year' subject subject' dir

theorem property_missing {α : Type} {table : List (String × α)} (inherited : α) {id : Text}
    (hkey : id ∉ table.map fun entry => lit entry.1) (hid : id ∉ inheritedIds) :
    property table inherited id = none := by
  have hnone : (table.find? fun entry => lit entry.1 = id) = none := by
    rw [List.find?_eq_none]
    intro entry hentry heq
    exact hkey (List.mem_map.mpr ⟨entry, hentry, of_decide_eq_true heq⟩)
  simp only [property, hnone, if_neg hid]

theorem fallsBack_of_not_inherited {templateId : Text} (hid : templateId ∉ inheritedIds) :
    FallsBack templateId := by
  intro hown WEB_BASE_URL subject recipient vars
  simp only [ownIds, List.cons_append, List.mem_cons, List.mem_append, not_or] at hown
  obtain ⟨hinvite, htoken, hnotification⟩ := hown
  have hgeneric : resolveContent.withoutToken WEB_BASE_URL templateId subject =
      genericContent WEB_BASE_URL subject := by
    simp only [resolveContent.withoutToken, notificationTemplate,
      property_missing _ hnotification hid]
  rcases givenToken_cases vars with ⟨hnone, -⟩ | ⟨token, hsome, -⟩
  · rw [resolveContent_without hnone, hgeneric]
  · rw [resolveContent_with hsome, if_neg hinvite, tokenTemplate, property_missing _ htoken hid]
    exact hgeneric

/-- The content of an inherited id has no heading. -/
theorem inherited_throws {templateId : Text} (hid : templateId ∈ inheritedIds) (year : Nat)
    (WEB_BASE_URL subject recipient : Text) (dir : Dir) :
    renderHtml year (resolveContent WEB_BASE_URL templateId subject ⟨none, none, none⟩ recipient)
      subject dir = .error .undefinedReplace := by
  have hnone : (NOTIFICATION_TEMPLATES.find? fun entry => lit entry.1 = templateId) = none := by
    have hall : ∀ id ∈ inheritedIds, ∀ key ∈ NOTIFICATION_TEMPLATES.map Prod.fst, lit key ≠ id := by
      decide
    rw [List.find?_eq_none]
    intro entry hentry heq
    exact hall templateId hid entry.1 (List.mem_map.mpr ⟨entry, hentry, rfl⟩)
      (of_decide_eq_true heq)
  have htemplate : notificationTemplate templateId = some ⟨none, none, none, none⟩ := by
    simp only [notificationTemplate, property, hnone, if_pos hid]
  rw [resolveContent_without rfl, resolveContent.withoutToken, htemplate]
  rfl

end MailRenderer

end JobBoard
