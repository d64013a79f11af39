import RecordSchema.Command.Completion.Script

/-!
# Completion in PowerShell

The script for PowerShell.
Its lines are written with the marks of `Script`.
-/

namespace RecordSchema.Completion.Powershell

/-- Part 1 of the script. -/
def part1 : List String :=
  ["# powershell completion for ¤ -*- shell-script -*-",
    "",
    "function __§_debug ‹",
    "    if ($env:BASH_COMP_DEBUG_FILE) ‹",
    "        \"$args\" | Out-File -Append -FilePath \"$env:BASH_COMP_DEBUG_FILE\"",
    "    ›",
    "›",
    "",
    "filter __§_escapeStringWithSpecialChars ‹",
    "    $_ -replace '\\s|#|@|\\$|;|,|''|\\‹|\\›|\\(|\\)|\"|\x60|\\||<|>|&','\x60$&'",
    "›",
    "",
    "[scriptblock]$‹__§CompleterBlock› = ‹",
    "    param(",
    "            $WordToComplete,",
    "            $CommandAst,",
    "            $CursorPosition",
    "        )",
    "",
    "    # Get the current command line and convert into a string",
    "    $Command = $CommandAst.CommandElements",
    "    $Command = \"$Command\"",
    "",
    "    __§_debug \"\"",
    "    __§_debug \"========= starting completion logic ==========\"",
    "    __§_debug \"WordToComplete: $WordToComplete Command: $Command CursorPosition: " ++
      "$CursorPosition\"",
    "",
    "    # The user could have moved the cursor backwards on the command-line.",
    "    # We need to trigger completion from the $CursorPosition location, so we need",
    "    # to truncate the command-line ($Command) up to the $CursorPosition location.",
    "    # Make sure the $Command is longer then the $CursorPosition before we truncate.",
    "    # This happens because the $Command does not include the last space.",
    "    if ($Command.Length -gt $CursorPosition) ‹",
    "        $Command=$Command.Substring(0,$CursorPosition)",
    "    ›",
    "    __§_debug \"Truncated command: $Command\"",
    "",
    "    $ShellCompDirectiveError=1",
    "    $ShellCompDirectiveNoSpace=2",
    "    $ShellCompDirectiveNoFileComp=4",
    "    $ShellCompDirectiveFilterFileExt=8",
    "    $ShellCompDirectiveFilterDirs=16",
    "    $ShellCompDirectiveKeepOrder=32",
    "",
    "    # Prepare the command to request completions for the program.",
    "    # Split the command at the first space to separate the program and arguments.",
    "    $Program,$Arguments = $Command.Split(\" \",2)",
    "",
    "    $RequestComp=\"$Program ¶ $Arguments\"",
    "    __§_debug \"RequestComp: $RequestComp\"",
    "",
    "    # we cannot use $WordToComplete because it",
    "    # has the wrong values if the cursor was moved",
    "    # so use the last argument",
    "    if ($WordToComplete -ne \"\" ) ‹",
    "        $WordToComplete = $Arguments.Split(\" \")[-1]",
    "    ›",
    "    __§_debug \"New WordToComplete: $WordToComplete\"",
    "",
    ""]

/-- Part 2 of the script. -/
def part2 : List String :=
  ["    # Check for flag with equal sign",
    "    $IsEqualFlag = ($WordToComplete -Like \"--*=*\" )",
    "    if ( $IsEqualFlag ) ‹",
    "        __§_debug \"Completing equal sign flag\"",
    "        # Remove the flag part",
    "        $Flag,$WordToComplete = $WordToComplete.Split(\"=\",2)",
    "    ›",
    "",
    "    if ( $WordToComplete -eq \"\" -And ( -Not $IsEqualFlag )) ‹",
    "        # If the last parameter is complete (there is a space following it)",
    "        # We add an extra empty parameter so we can indicate this to the go method.",
    "        __§_debug \"Adding extra empty parameter\"",
    "        # PowerShell 7.2+ changed the way how the arguments are passed to executables,",
    "        # so for pre-7.2 or when Legacy argument passing is enabled we need to use",
    "        # \x60\"\x60\" to pass an empty argument, a \"\" or '' does not work!!!",
    "        if ($PSVersionTable.PsVersion -lt [version]'7.2.0' -or",
    "            ($PSVersionTable.PsVersion -lt [version]'7.3.0' -and -not " ++
      "[ExperimentalFeature]::IsEnabled(\"PSNativeCommandArgumentPassing\")) -or",
    "            (($PSVersionTable.PsVersion -ge [version]'7.3.0' -or " ++
      "[ExperimentalFeature]::IsEnabled(\"PSNativeCommandArgumentPassing\")) -and",
    "              $PSNativeCommandArgumentPassing -eq 'Legacy')) ‹",
    "             $RequestComp=\"$RequestComp\" + ' \x60\"\x60\"'",
    "        › else ‹",
    "             $RequestComp=\"$RequestComp\" + ' \"\"'",
    "        ›",
    "    ›",
    "",
    "    __§_debug \"Calling $RequestComp\"",
    "    # First disable ActiveHelp which is not supported for Powershell",
    "    $‹env:‡›=0",
    "",
    "    #call the command store the output in $out and redirect stderr and stdout to null",
    "    # $Out is an array contains each line per element",
    "    Invoke-Expression -OutVariable out \"$RequestComp\" 2>&1 | Out-Null",
    "",
    "    # get directive from last line",
    "    [int]$Directive = $Out[-1].TrimStart(':')",
    "    if ($Directive -eq \"\") ‹",
    "        # There is no directive specified",
    "        $Directive = 0",
    "    ›",
    "    __§_debug \"The completion directive is: $Directive\"",
    "",
    "    # remove directive (last element) from out",
    "    $Out = $Out | Where-Object ‹ $_ -ne $Out[-1] ›",
    "    __§_debug \"The completions are: $Out\"",
    "",
    "    if (($Directive -band $ShellCompDirectiveError) -ne 0 ) ‹",
    "        # Error code.  No completion.",
    "        __§_debug \"Received error from custom completion go code\"",
    "        return",
    "    ›",
    "",
    "    $Longest = 0",
    "    [Array]$Values = $Out | ForEach-Object ‹",
    "        #Split the output in name and description",
    "        $Name, $Description = $_.Split(\"\x60t\",2)",
    "        __§_debug \"Name: $Name Description: $Description\"",
    "",
    "        # Look for the longest completion so that we can format things nicely",
    "        if ($Longest -lt $Name.Length) ‹",
    "            $Longest = $Name.Length",
    "        ›",
    ""]

/-- Part 3 of the script. -/
def part3 : List String :=
  ["        # Set the description to a one space string if there is none set.",
    "        # This is needed because the CompletionResult does not accept an empty string " ++
      "as argument",
    "        if (-Not $Description) ‹",
    "            $Description = \" \"",
    "        ›",
    "        New-Object -TypeName PSCustomObject -Property @‹",
    "            Name = \"$Name\"",
    "            Description = \"$Description\"",
    "        ›",
    "    ›",
    "",
    "",
    "    $Space = \" \"",
    "    if (($Directive -band $ShellCompDirectiveNoSpace) -ne 0 ) ‹",
    "        # remove the space here",
    "        __§_debug \"ShellCompDirectiveNoSpace is called\"",
    "        $Space = \"\"",
    "    ›",
    "",
    "    if ((($Directive -band $ShellCompDirectiveFilterFileExt) -ne 0 ) -or",
    "       (($Directive -band $ShellCompDirectiveFilterDirs) -ne 0 ))  ‹",
    "        __§_debug \"ShellCompDirectiveFilterFileExt ShellCompDirectiveFilterDirs are " ++
      "not supported\"",
    "",
    "        # return here to prevent the completion of the extensions",
    "        return",
    "    ›",
    "",
    "    $Values = $Values | Where-Object ‹",
    "        # filter the result",
    "        $_.Name -like \"$WordToComplete*\"",
    "",
    "        # Join the flag back if we have an equal sign flag",
    "        if ( $IsEqualFlag ) ‹",
    "            __§_debug \"Join the equal sign flag back to the completion value\"",
    "            $_.Name = $Flag + \"=\" + $_.Name",
    "        ›",
    "    ›",
    "",
    "    # we sort the values in ascending order by name if keep order isn't passed",
    "    if (($Directive -band $ShellCompDirectiveKeepOrder) -eq 0 ) ‹",
    "        $Values = $Values | Sort-Object -Property Name",
    "    ›",
    "",
    "    if (($Directive -band $ShellCompDirectiveNoFileComp) -ne 0 ) ‹",
    "        __§_debug \"ShellCompDirectiveNoFileComp is called\"",
    "",
    "        if ($Values.Length -eq 0) ‹",
    "            # Just print an empty string here so the",
    "            # shell does not start to complete paths.",
    "            # We cannot use CompletionResult here because",
    "            # it does not accept an empty string as argument.",
    "            \"\"",
    "            return",
    "        ›",
    "    ›",
    "",
    "    # Get the current mode",
    "    $Mode = (Get-PSReadLineKeyHandler | Where-Object ‹$_.Key -eq \"Tab\" ›).Function",
    "    __§_debug \"Mode: $Mode\"",
    ""]

/-- Part 4 of the script. -/
def part4 : List String :=
  ["    $Values | ForEach-Object ‹",
    "",
    "        # store temporary because switch will overwrite $_",
    "        $comp = $_",
    "",
    "        # PowerShell supports three different completion modes",
    "        # - TabCompleteNext (default windows style - on each key press the next option " ++
      "is displayed)",
    "        # - Complete (works like bash)",
    "        # - MenuComplete (works like zsh)",
    "        # You set the mode with Set-PSReadLineKeyHandler -Key Tab -Function <mode>",
    "",
    "        # CompletionResult Arguments:",
    "        # 1) CompletionText text to be used as the auto completion result",
    "        # 2) ListItemText   text to be displayed in the suggestion list",
    "        # 3) ResultType     type of completion result",
    "        # 4) ToolTip        text for the tooltip with details about the object",
    "",
    "        switch ($Mode) ‹",
    "",
    "            # bash like",
    "            \"Complete\" ‹",
    "",
    "                if ($Values.Length -eq 1) ‹",
    "                    __§_debug \"Only one completion left\"",
    "",
    "                    # insert space after value",
    "                    $CompletionText = $($comp.Name | __§_escapeStringWithSpecialChars) " ++
      "+ $Space",
    "                    if ($ExecutionContext.SessionState.LanguageMode -eq " ++
      "\"FullLanguage\")‹",
    "                        " ++
      "[System.Management.Automation.CompletionResult]::new($CompletionText, " ++
      "\"$($comp.Name)\", 'ParameterValue', \"$($comp.Description)\")",
    "                    › else ‹",
    "                        $CompletionText",
    "                    ›",
    "",
    "                › else ‹",
    "                    # Add the proper number of spaces to align the descriptions",
    "                    while($comp.Name.Length -lt $Longest) ‹",
    "                        $comp.Name = $comp.Name + \" \"",
    "                    ›",
    "",
    "                    # Check for empty description and only add parentheses if needed",
    "                    if ($($comp.Description) -eq \" \" ) ‹",
    "                        $Description = \"\"",
    "                    › else ‹",
    "                        $Description = \"  ($($comp.Description))\"",
    "                    ›",
    "",
    "                    $CompletionText = \"$($comp.Name)$Description\"",
    "                    if ($ExecutionContext.SessionState.LanguageMode -eq " ++
      "\"FullLanguage\")‹",
    "                        " ++
      "[System.Management.Automation.CompletionResult]::new($CompletionText, " ++
      "\"$($comp.Name)$Description\", 'ParameterValue', \"$($comp.Description)\")",
    "                    › else ‹",
    "                        $CompletionText",
    "                    ›",
    "                ›",
    "             ›",
    "",
    "            # zsh like",
    "            \"MenuComplete\" ‹",
    "                # insert space after value",
    "                # MenuComplete will automatically show the ToolTip of",
    "                # the highlighted value at the bottom of the suggestions.",
    ""]

/-- Part 5 of the script. -/
def part5 : List String :=
  ["                $CompletionText = $($comp.Name | __§_escapeStringWithSpecialChars) + " ++
      "$Space",
    "                if ($ExecutionContext.SessionState.LanguageMode -eq \"FullLanguage\")‹",
    "                    " ++
      "[System.Management.Automation.CompletionResult]::new($CompletionText, " ++
      "\"$($comp.Name)\", 'ParameterValue', \"$($comp.Description)\")",
    "                › else ‹",
    "                    $CompletionText",
    "                ›",
    "            ›",
    "",
    "            # TabCompleteNext and in case we get something unknown",
    "            Default ‹",
    "                # Like MenuComplete but we don't want to add a space here because",
    "                # the user need to press space anyway to get the completion.",
    "                # Description will not be shown because that's not possible with " ++
      "TabCompleteNext",
    "",
    "                $CompletionText = $($comp.Name | __§_escapeStringWithSpecialChars)",
    "                if ($ExecutionContext.SessionState.LanguageMode -eq \"FullLanguage\")‹",
    "                    " ++
      "[System.Management.Automation.CompletionResult]::new($CompletionText, " ++
      "\"$($comp.Name)\", 'ParameterValue', \"$($comp.Description)\")",
    "                › else ‹",
    "                    $CompletionText",
    "                ›",
    "            ›",
    "        ›",
    "",
    "    ›",
    "›",
    "",
    "Register-ArgumentCompleter -CommandName '§' -ScriptBlock $‹__§CompleterBlock›"]

/-- All lines of the script. -/
def lines : List String := part1 ++ part2 ++ part3 ++ part4 ++ part5

end RecordSchema.Completion.Powershell
