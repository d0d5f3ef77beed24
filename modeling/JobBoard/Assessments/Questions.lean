import JobBoard.Lib.Double
import JobBoard.Lib.Shuffle
import JobBoard.Assessments.Entities

/-!
# The question bank

`assessment-questions.ts`: the banks, the resolution of the name of a specialty to a bank, the
seeded shuffle with its hash and its generator, and the exam drawn for a specialty. Prompts and
options are left out.
-/

set_option autoImplicit false

namespace JobBoard.Assessments

namespace Questions

/-! ## The banks -/

def psychotechnical (id domain : String) (correct : Int) : ExamQuestion :=
  ⟨id, .psychotechnical, domain, correct⟩

def technical (id domain : String) (correct : Int) : ExamQuestion :=
  ⟨id, .technical, domain, correct⟩

def PSYCHO : List ExamQuestion :=
  [psychotechnical "psy-1" "Logique" 2, psychotechnical "psy-2" "Numérique" 2,
    psychotechnical "psy-3" "Verbal" 1, psychotechnical "psy-4" "Logique" 2,
    psychotechnical "psy-5" "Logique" 2, psychotechnical "psy-6" "Raisonnement" 2,
    psychotechnical "psy-7" "Numérique" 1, psychotechnical "psy-8" "Numérique" 1,
    psychotechnical "psy-9" "Verbal" 1, psychotechnical "psy-10" "Numérique" 2,
    psychotechnical "psy-11" "Logique" 1, psychotechnical "psy-12" "Logique" 2,
    psychotechnical "psy-13" "Verbal" 1, psychotechnical "psy-14" "Probabilités" 2,
    psychotechnical "psy-15" "Logique" 2, psychotechnical "psy-16" "Numérique" 1,
    psychotechnical "psy-17" "Verbal" 1, psychotechnical "psy-18" "Logique" 2,
    psychotechnical "psy-19" "Numérique" 1, psychotechnical "psy-20" "Raisonnement" 1,
    psychotechnical "psy-21" "Logique" 2, psychotechnical "psy-22" "Numérique" 2,
    psychotechnical "psy-23" "Verbal" 2, psychotechnical "psy-24" "Logique" 0,
    psychotechnical "psy-25" "Probabilités" 2, psychotechnical "psy-26" "Numérique" 1]

def SHARED_TECH : List ExamQuestion :=
  [technical "sh-1" "Algorithmes" 0, technical "sh-2" "Structures de données" 1,
    technical "sh-3" "Structures de données" 1, technical "sh-4" "HTTP" 2,
    technical "sh-5" "HTTP" 1, technical "sh-6" "HTTP" 2, technical "sh-7" "SQL" 1,
    technical "sh-8" "SQL" 1, technical "sh-9" "Git" 1, technical "sh-10" "Git" 1,
    technical "sh-11" "POO" 2, technical "sh-12" "Bases de données" 1,
    technical "sh-13" "Bases de données" 1, technical "sh-14" "Cryptographie" 1,
    technical "sh-15" "Cryptographie" 1, technical "sh-16" "Sécurité" 2,
    technical "sh-17" "Sécurité" 1, technical "sh-18" "Sécurité" 1,
    technical "sh-19" "Algorithmes" 1, technical "sh-20" "Algorithmes" 1,
    technical "sh-21" "Réseaux" 1, technical "sh-22" "Réseaux" 1, technical "sh-23" "Conteneurs" 1,
    technical "sh-24" "Tests" 1, technical "sh-25" "CI/CD" 1, technical "sh-26" "Algorithmes" 0,
    technical "sh-27" "Programmation" 1, technical "sh-28" "SQL" 2,
    technical "sh-29" "Bases de données" 1, technical "sh-30" "Concurrence" 1,
    technical "sh-31" "API" 1, technical "sh-32" "Données" 1, technical "sh-33" "Algorithmes" 1,
    technical "sh-34" "Structures de données" 2, technical "sh-35" "HTTP" 3,
    technical "sh-36" "SQL" 2, technical "sh-37" "Réseaux" 1, technical "sh-38" "Sécurité" 1,
    technical "sh-39" "POO" 1, technical "sh-40" "Git" 1, technical "sh-41" "Bases de données" 1,
    technical "sh-42" "Concurrence" 1, technical "sh-43" "Algorithmes" 2,
    technical "sh-44" "API" 1]

def PROFILE_TECH : List (String × List ExamQuestion) :=
  [("Software Engineer",
      [technical "se-1" "Design" 1, technical "se-2" "Structures de données" 0,
        technical "se-3" "Design Patterns" 1, technical "se-4" "Concurrence" 2,
        technical "se-5" "POO" 1, technical "se-6" "Algorithmes" 1,
        technical "se-7" "Programmation" 1, technical "se-8" "Bonnes pratiques" 1]),
    ("Java / Backend",
      [technical "jb-1" "Collections" 1, technical "jb-2" "Java Core" 1,
        technical "jb-3" "Spring" 1, technical "jb-4" "JPA" 1, technical "jb-5" "JVM" 1,
        technical "jb-6" "Java Core" 1, technical "jb-7" "Concurrence" 1,
        technical "jb-8" "REST" 1]),
    ("Frontend",
      [technical "fe-1" "React" 1, technical "fe-2" "React" 1, technical "fe-3" "CSS" 1,
        technical "fe-4" "JavaScript" 1, technical "fe-5" "Browser" 1,
        technical "fe-6" "TypeScript" 1, technical "fe-7" "Accessibilité" 1,
        technical "fe-8" "React" 1]),
    ("Full Stack",
      [technical "fs-1" "API" 1, technical "fs-2" "Authentification" 1,
        technical "fs-3" "Sécurité web" 1, technical "fs-4" "Persistance" 1,
        technical "fs-5" "HTTP" 1, technical "fs-6" "Back-end" 1, technical "fs-7" "Déploiement" 1,
        technical "fs-8" "Bases de données" 1]),
    ("Data Engineer",
      [technical "de-1" "ETL" 1, technical "de-2" "Spark" 1, technical "de-3" "Modélisation" 1,
        technical "de-4" "Streaming" 1, technical "de-5" "Data Warehouse" 1,
        technical "de-6" "Pipelines" 1, technical "de-7" "SQL" 1, technical "de-8" "Qualité" 1]),
    ("DevOps / Cloud",
      [technical "do-1" "Conteneurs" 1, technical "do-2" "Kubernetes" 1, technical "do-3" "IaC" 0,
        technical "do-4" "CI/CD" 1, technical "do-5" "Réseaux" 1,
        technical "do-6" "Observabilité" 1, technical "do-7" "Kubernetes" 1,
        technical "do-8" "Scalabilité" 1]),
    ("Cybersecurity",
      [technical "cy-1" "Bonnes pratiques" 1, technical "cy-2" "Cryptographie" 1,
        technical "cy-3" "Réseaux" 1, technical "cy-4" "Authentification" 1,
        technical "cy-5" "TLS" 1, technical "cy-6" "Attaques" 1,
        technical "cy-7" "Cryptographie" 1, technical "cy-8" "AppSec" 1]),
    ("QA / Test",
      [technical "qa-1" "Tests" 1, technical "qa-2" "Tests" 1, technical "qa-3" "Méthodo" 1,
        technical "qa-4" "Tests" 1, technical "qa-5" "Couverture" 1,
        technical "qa-6" "Automatisation" 1, technical "qa-7" "Performance" 1,
        technical "qa-8" "Défauts" 1]),
    ("Business Analyst IT",
      [technical "ba-1" "Agile" 1, technical "ba-2" "BPMN" 1, technical "ba-3" "UML" 1,
        technical "ba-4" "Recette" 1, technical "ba-5" "Exigences" 1,
        technical "ba-6" "Exigences" 1, technical "ba-7" "Agile" 1,
        technical "ba-8" "Priorisation" 1]),
    ("IT Project Manager",
      [technical "pm-1" "Scrum" 1, technical "pm-2" "Planning" 1, technical "pm-3" "Risques" 1,
        technical "pm-4" "Gestion" 0, technical "pm-5" "Planning" 1, technical "pm-6" "Scrum" 1,
        technical "pm-7" "Suivi" 1, technical "pm-8" "Gouvernance" 1])]

/-- Display names of the catalogue, and the bank that they draw from. -/
def ALIASES : List (String × String) :=
  [("Développement Logiciel", "Software Engineer"),
    ("Développement Web Full-Stack", "Frontend"),
    ("Data Engineering", "Data Engineer"),
    ("DevOps & Cloud", "DevOps / Cloud"),
    ("Cybersécurité", "Cybersecurity"),
    ("Product Design (UX/UI)", "Frontend"),
    ("Génie Logiciel", "Software Engineer"),
    ("Développement Back-end (Java)", "Java / Backend"),
    ("Développement Front-end", "Frontend"),
    ("Développement Full-Stack", "Full Stack"),
    ("Ingénierie des Données", "Data Engineer"),
    ("Qualité & Test (QA)", "QA / Test"),
    ("Chef de Projet IT", "IT Project Manager")]

def PROFILE_NAMES : List String := PROFILE_TECH.map (·.1)

/-- What every object inherits from `Object.prototype`. -/
def OBJECT_PROTOTYPE : List String :=
  ["constructor", "__defineGetter__", "__defineSetter__", "hasOwnProperty", "__lookupGetter__",
    "__lookupSetter__", "isPrototypeOf", "propertyIsEnumerable", "toString", "valueOf",
    "__proto__", "toLocaleString"]

/-! ## Strings -/

/-- A string of ECMAScript: its code units. -/
abbrev CodeUnits := List (BitVec 16)

def codeUnits (c : Char) : CodeUnits :=
  if c.toNat < 0x10000 then [BitVec.ofNat 16 c.toNat]
  else [BitVec.ofNat 16 (0xD800 + (c.toNat - 0x10000) / 0x400),
    BitVec.ofNat 16 (0xDC00 + (c.toNat - 0x10000) % 0x400)]

def utf16 (s : String) : CodeUnits := s.toList.flatMap codeUnits

/-- `table[name]`. -/
inductive Property (α : Type) where
  | own (value : α)
  | inherited
  | missing

def property {α : Type} (table : List (String × α)) (name : CodeUnits) : Property α :=
  match table.find? fun entry => utf16 entry.1 = name with
  | some entry => .own entry.2
  | none => if name ∈ OBJECT_PROTOTYPE.map utf16 then .inherited else .missing

/-! ## The bank of a specialty -/

section

variable (toLowerCase : CodeUnits → CodeUnits)

/-- The profile whose name is the same but for the case. -/
def caseInsensitive (name : CodeUnits) : Option String :=
  PROFILE_NAMES.find? fun p => toLowerCase (utf16 p) = toLowerCase name

def resolveProfile : Option CodeUnits → CodeUnits
  | none => utf16 "Software Engineer"
  | some name =>
    if name = [] then utf16 "Software Engineer"
    else
      match property PROFILE_TECH name with
      | .own _ | .inherited => name
      | .missing =>
        match property ALIASES name with
        | .own profile => utf16 profile
        -- never: `PROFILE_TECH` inherits the same properties
        | .inherited => name
        | .missing => utf16 ((caseInsensitive toLowerCase name).getD "Software Engineer")

end

/-! ## The shuffle -/

/-- The hash of the seed, before the first number is drawn. -/
def hashSeed (seed : CodeUnits) : Int :=
  seed.foldl (fun h c => ((BitVec.ofInt 32 h ^^^ c.setWidth 32) * 16777619#32).toInt) 2166136261

/-- `h` after a draw. -/
def next (h : Int) : Int := Double.round (h + 0x6d2b79f5)

/-- `rand() * 4294967296`, for the `h` after the draw. -/
def rand (h : Int) : BitVec 32 :=
  let t := BitVec.ofInt 32 h
  let t := (t ^^^ (t >>> 15)) * (t ||| 1#32)
  let t := t ^^^ (t + (t ^^^ (t >>> 7)) * (t ||| 61#32))
  t ^^^ (t >>> 14)

/-- `Math.floor(rand() * (i + 1))`. -/
def pick (h : Int) (i : Nat) : Fin (i + 1) × Int :=
  (⟨Double.roundNat ((rand (next h)).toNat * (i + 1)) / 2 ^ 32,
    Nat.div_lt_of_lt_mul (Double.roundNat_mul_lt (rand (next h)).isLt (Nat.succ_pos i))⟩, next h)

def seededShuffle {α : Type} (items : List α) (seed : CodeUnits) : List α :=
  Shuffle.shuffle pick (hashSeed seed) items

/-! ## The exam -/

def TECHNICAL_PER_EXAM : Nat := 20

def PSYCHO_PER_EXAM : Nat := 10

/-- The bank of a profile; none of the inherited properties is iterable. -/
def profileBank (profile : CodeUnits) : Option (List ExamQuestion) :=
  match property PROFILE_TECH profile with
  | .own bank => some bank
  | .inherited => none
  | .missing => some []

def examForSpecialty (toLowerCase : CodeUnits → CodeUnits) (specialtyName : Option CodeUnits)
    (seed : CodeUnits) : Option (List ExamQuestion) := do
  let profile := resolveProfile toLowerCase specialtyName
  let bank ← profileBank profile
  let profileTech := seededShuffle bank (seed ++ utf16 ":pt")
  let sharedTech := seededShuffle SHARED_TECH (seed ++ utf16 ":st")
  let technical := (profileTech ++ sharedTech).take TECHNICAL_PER_EXAM
  let psycho := (seededShuffle PSYCHO (seed ++ utf16 ":psy")).take PSYCHO_PER_EXAM
  return technical ++ psycho

end Questions

end JobBoard.Assessments
