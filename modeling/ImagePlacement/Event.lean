import ImagePlacement.Failure

namespace ImagePlacement

/-- What is worth noting while images are loaded. -/
inductive Event where
  /-- The extension of a path suggests another format than its content has. -/
  | mismatch (path : String) (suggested found : Format)
  /-- A decoder is run. -/
  | decoding (format : Format)
  | loadFailed (path : String) (error : LoadError)
  /-- A data URL is refused for its length. -/
  | payloadTooLarge (estimate limit : Nat)

/-- The warning that users see, if the event is one. -/
def Event.warning? : Event → Option String
  | mismatch path suggested found =>
    some ("⚠️ 扩展名与内容不一致 - 路径: " ++ path ++ " 扩展名: " ++ suggested.name ++ " 实际: " ++
      found.name)
  | decoding _ => none
  | loadFailed path error =>
    some ("❌ 图片加载失败 - 阶段: " ++ error.stage.name ++ " 路径: " ++ path ++ " 原因: " ++
      error.message)
  | payloadTooLarge estimate limit =>
    some ("⚠️ Data URL 预估体积超限 - 约 " ++ toString estimate ++ "B 限制 " ++ toString limit ++
      "B")

end ImagePlacement
