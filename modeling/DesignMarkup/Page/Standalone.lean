/-
  DesignMarkup/Page/Standalone.lean
  =================================
  **A document of its own.**  The markup of a page, its stylesheet and a title, put
  together so that the file can be opened by itself.
-/
import DesignMarkup.Page.Compile

namespace DesignMarkup

/-- The style element, if there are styles to put into it. -/
def styleElement (css : String) : String :=
  if css = "" then "" else "  <style>\n" ++ css ++ "  </style>\n"

/-- The document for a converted design. -/
def Output.page (output : Output) (title : String) : String :=
  "<!DOCTYPE html>\n<html>\n<head>\n  <meta charset=\"UTF-8\">\n"
    ++ "  <title>" ++ Markup.escapeText title ++ "</title>\n"
    ++ styleElement output.css
    ++ "</head>\n<body>\n" ++ output.html ++ "</body>\n</html>\n"

end DesignMarkup
