import RedGreen.Text.Blank

/-!
# Emoji by name

Messages may name an emoji between colons, as in `:bug:`.  Only the names that are in use for
marking commits are known; any other text between colons stays.
-/

namespace RedGreen

namespace Emoji

/-- The emoji under their names, by code point. -/
def named : List (String × Nat) := [
  ("adhesive_bandage", 0x1FA79), ("alembic", 0x2697), ("alien", 0x1F47D), ("ambulance", 0x1F691),
  ("arrow_down", 0x2B07), ("arrow_up", 0x2B06), ("art", 0x1F3A8), ("beers", 0x1F37B),
  ("bento", 0x1F371), ("boom", 0x1F4A5), ("bookmark", 0x1F516), ("bricks", 0x1F9F1),
  ("brick", 0x1F9F1), ("bug", 0x1F41B), ("building_construction", 0x1F3D7), ("bulb", 0x1F4A1),
  ("busts_in_silhouette", 0x1F465), ("camera_flash", 0x1F4F8), ("card_file_box", 0x1F5C3),
  ("chart_with_upwards_trend", 0x1F4C8), ("children_crossing", 0x1F6B8), ("clown_face", 0x1F921),
  ("coffin", 0x26B0), ("collision", 0x1F4A5), ("construction", 0x1F6A7),
  ("construction_worker", 0x1F477), ("cross_mark", 0x274C), ("dizzy", 0x1F4AB), ("egg", 0x1F95A),
  ("eyes", 0x1F440), ("fire", 0x1F525), ("gear", 0x2699), ("globe_with_meridians", 0x1F310),
  ("goal_net", 0x1F945), ("green_heart", 0x1F49A), ("hammer", 0x1F528),
  ("heart", 0x2764), ("heavy_check_mark", 0x2714), ("heavy_minus_sign", 0x2796),
  ("heavy_plus_sign", 0x2795), ("iphone", 0x1F4F1), ("key", 0x1F511), ("label", 0x1F3F7),
  ("lipstick", 0x1F484), ("lock", 0x1F512), ("loud_sound", 0x1F50A), ("mag", 0x1F50D),
  ("memo", 0x1F4DD), ("money_with_wings", 0x1F4B8), ("monocle_face", 0x1F9D0), ("mute", 0x1F507),
  ("necktie", 0x1F454), ("package", 0x1F4E6), ("page_facing_up", 0x1F4C4),
  ("passport_control", 0x1F6C2), ("pencil", 0x1F4DD), ("pencil2", 0x270F), ("pile_of_poo", 0x1F4A9),
  ("poop", 0x1F4A9), ("pushpin", 0x1F4CC), ("recycle", 0x267B), ("rewind", 0x23EA),
  ("rocket", 0x1F680), ("rotating_light", 0x1F6A8), ("safety_vest", 0x1F9BA),
  ("see_no_evil", 0x1F648), ("seedling", 0x1F331), ("smile", 0x1F604), ("smiley", 0x1F603),
  ("sparkles", 0x2728), ("speech_balloon", 0x1F4AC), ("star", 0x2B50), ("stethoscope", 0x1FA7A),
  ("tada", 0x1F389), ("test_tube", 0x1F9EA), ("thread", 0x1F9F5), ("thumbs_up", 0x1F44D),
  ("thumbsup", 0x1F44D), ("triangular_flag_on_post", 0x1F6A9), ("truck", 0x1F69A),
  ("twisted_rightwards_arrows", 0x1F500), ("warning", 0x26A0), ("wastebasket", 0x1F5D1),
  ("wheelchair", 0x267F), ("white_check_mark", 0x2705), ("wrench", 0x1F527), ("x", 0x274C),
  ("zap", 0x26A1)]

/-- The name without the form that it may ask for, and the selector of that form. -/
def splitForm (name : Text) : Text × Text :=
  match Text.dropTail? "-emoji" name, Text.dropTail? "-text" name with
  | some base, _ => (base, [CodePoint.ofNat 0xFE0F])
  | none, some base => (base, [CodePoint.ofNat 0xFE0E])
  | none, none => (name, [])

/-- The emoji with a name, in either case. -/
def find? (name : Text) : Option Text :=
  let (base, selector) := splitForm name
  (named.find? fun entry => Text.ofString entry.1 = base.toLowerAscii).map fun entry =>
    CodePoint.ofNat entry.2 :: selector

def colon : CodePoint := CodePoint.ofChar ':'

/-- The text up to the next colon, and what follows that; there is no blank in it. -/
def untilColon : Text → Option (Text × Text)
  | [] => none
  | c :: t =>
    if c = colon then some ([], t)
    else if c.isBlank then none
    else (untilColon t).map fun p => (c :: p.1, p.2)

theorem length_untilColon {t : Text} {p : Text × Text} (h : untilColon t = some p) :
    p.2.length < t.length := by
  induction t generalizing p with
  | nil => simp [untilColon] at h
  | cons c t ih =>
    simp only [untilColon] at h
    split at h
    · cases h; simp
    · split at h
      · cases h
      · obtain ⟨q, hq, rfl⟩ := Option.map_eq_some_iff.1 h
        have := ih hq
        simp only [List.length_cons]
        omega

def replace : Text → Text
  | [] => []
  | c :: t =>
    if c = colon then
      match _h : untilColon t with
      | some (name, rest) =>
        (find? name).getD (colon :: name ++ [colon]) ++ replace rest
      | none => c :: replace t
    else c :: replace t
termination_by t => t.length
decreasing_by
  · have : rest.length < t.length := length_untilColon _h
    simp only [List.length_cons]
    omega
  · simp
  · simp

end Emoji

end RedGreen
